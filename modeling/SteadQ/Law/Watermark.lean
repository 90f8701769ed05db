/-
  File:      SteadQ/Law/Watermark.lean
  Subject:   THE LAW OF THE WALL FLOOR.

  The floor of wall time is read from the watermark and may advance it. Of the law this needs
  little: the record is written to a temporary file of the call, and that file takes the place of
  the watermark. Nothing is moved, and no random value but the one of the temporary name is used.
-/
import SteadQ.Law.Rules
import SteadQ.Lib.Invariant

namespace SteadQ

open Octet Interact
open Interact.Task (preserves_call preserves_memory preserves_ofOption preserves_pure
  preserves_throw)

variable {f : FormatRecord} {g g' g₀ : Ghost} {h h' : Handle} {ε α : Type}

/-! ## 1. What an acquisition keeps -/

/-- Nothing has been moved since `g₀`. -/
structure Calm (f : FormatRecord) (g₀ : Ghost) (h : Handle) (g : Ghost) : Prop
    extends Quiet f h g where
  grows : Grows g₀ g

theorem Calm.memory (hc : Calm f g₀ h g) (h₁ : h'.format = h.format) : Calm f g₀ h' g :=
  ⟨hc.toQuiet.memory h₁, hc.grows⟩

theorem Calm.grows_to (hc : Calm f g₀ h g) (hg : Grows g g') : Calm f g₀ h g' :=
  ⟨⟨hc.format⟩, hc.grows.trans hg⟩

theorem looking_keeps (m : LookM ε α) : (looking m).Preserves (law f) (Calm f g₀) :=
  fun _ _ hc => looking_any fun _ => hc

theorem liftLook_keeps (m : LookM ε α) : (liftM m : QueueM ε α).Preserves (law f) (Calm f g₀) :=
  looking_keeps m

theorem remember_keeps {k : Handle → Handle} (hk : ∀ h, (k h).format = h.format) :
    (Task.remember k : QueueM ε Unit).Preserves (law f) (Calm f g₀) :=
  Task.preserves_remember fun h _ hc => hc.memory (hk h)

/-! ## 2. Reading -/

theorem reopenWallWatermark_keeps (control : Dir) :
    (reopenWallWatermark control).Preserves (law f) (Calm f g₀) := by
  refine .bind (.mapErr (liftLook_keeps _)) fun data => .bind (liftLook_keeps _) fun snapshot => ?_
  cases snapshot with
  | current watermark =>
    exact .bind (remember_keeps fun _ => rfl) fun _ => preserves_pure _
  | replaced => exact preserves_pure _

theorem readWallWatermarkOnce_keeps (control : Dir) :
    (readWallWatermarkOnce control).Preserves (law f) (Calm f g₀) := by
  refine .bind preserves_memory fun h => ?_
  split
  · exact reopenWallWatermark_keeps control
  · refine .bind (liftLook_keeps _) fun snapshot => ?_
    cases snapshot with
    | current watermark => exact preserves_pure _
    | replaced => exact .bind (remember_keeps fun _ => rfl) fun _ => reopenWallWatermark_keeps _

theorem readWallWatermarkRounds_keeps (control : Dir) (attempts : Nat) :
    (readWallWatermarkRounds control attempts).Preserves (law f) (Calm f g₀) := by
  induction attempts with
  | zero => exact preserves_pure _
  | succ attempts ih =>
    refine .bind (readWallWatermarkOnce_keeps control) fun read => ?_
    cases read with
    | none => exact ih
    | some watermark => exact preserves_pure _

theorem tryReadWallWatermark_keeps (attempts : Nat) :
    (tryReadWallWatermark attempts).Preserves (law f) (Calm f g₀) :=
  .bind (.mapErr (liftLook_keeps _)) fun control => readWallWatermarkRounds_keeps control attempts

theorem authenticatedWallFloorWithAttempts_keeps (attempts : Nat) :
    (authenticatedWallFloorWithAttempts attempts).Preserves (law f) (Calm f g₀) := by
  refine .bind (.mapErr (tryReadWallWatermark_keeps attempts)) fun read => ?_
  refine .bind (preserves_ofOption _ _) fun watermark => ?_
  refine .bind (.mapErr (liftLook_keeps _)) fun clock => .bind preserves_memory fun h => ?_
  exact .bind (preserves_ofOption _ _) fun unixNs => preserves_pure _

theorem readWallWatermark_keeps : readWallWatermark.Preserves (law f) (Calm f g₀) :=
  .bind (tryReadWallWatermark_keeps _) fun _ => preserves_ofOption _ _

/-! ## 3. Advancing -/

/-- Names that start with a dot are temporary. -/
theorem ne_of_dot {name other : Name} (h : name.head? = some 46) (ho : other.head? ≠ some 46) :
    name ≠ other := by
  rintro rfl
  exact ho h

/-- The file at a temporary name in `control`. -/
def Drafts (f : FormatRecord) (g₀ : Ghost) (n : Name) (i : Ino) (h : Handle) (g : Ghost) : Prop :=
  Calm f g₀ h g ∧ ∃ o ∈ g.own, o.ino = i ∧ o.place = some (controlPath, n)

theorem writeWatermark_keeps {control : Dir} {n : Name} {i : Ino} (data : Bytes)
    (hc : control.path = controlPath) (hn : n ≠ recoveryLockName) (hd : Drafts f g₀ n i h g) :
    (do writeAll i data
        fsync i
        renameat control n control watermarkName : QueueM IoError Unit).Meets (law f) h g
      fun _ h' g' => Calm f g₀ h' g' := by
  have hwrite : (writeAll i data).Brings (law f) (Drafts f g₀ n i) (Drafts f g₀ n i) := by
    refine preserves_call fun h g hd => ⟨?_, fun _ _ => hd⟩
    obtain ⟨-, o, ho, hi, -⟩ := hd
    exact ⟨o, ho, hi⟩
  have hsync : (fsync i).Brings (law f) (Drafts f g₀ n i) (Drafts f g₀ n i) :=
    preserves_call fun _ _ hd => ⟨trivial, fun _ _ => hd⟩
  have hrename : (renameat control n control watermarkName).Brings (law f) (Drafts f g₀ n i)
      (Calm f g₀) := by
    rintro h g ⟨hcalm, o, ho, -, hplace⟩
    refine ⟨⟨rfl, hn, ?_, .inr (.inr ⟨hc, rfl⟩)⟩, fun r _ => ?_⟩
    · refine List.find?_isSome.mpr ⟨o, ho, ?_⟩
      rw [hc]
      exact decide_eq_true hplace
    · rcases r with e | _
      · exact hcalm
      · exact hcalm.grows_to ⟨rfl, fun _ h => h, rfl, rfl⟩
  exact Task.Brings.bind hwrite (fun _ _ hd => hd.1)
    (fun _ => Task.Brings.bind hsync (fun _ _ hd => hd.1) fun _ => hrename) h g hd

theorem replaceWallWatermark_keeps {control : Dir} (hc : control.path = controlPath)
    (record : WatermarkRecord) :
    (replaceWallWatermark control record).Preserves (law f) (Calm f g₀) := by
  intro h g hs
  have hrandom (r) : Calm f g₀ h ((law f).next g .random128 r) := by
    rcases r with e | x
    · exact hs
    · exact hs.grows_to (.random x)
  refine Task.Keeps.meets_bind (Task.keeps_call trivial fun r _ => hrandom r).mapErr ?_
  rintro x h _ hs₁ ⟨rfl, r, rfl, -, rfl⟩
  have hcreate (r) : Calm f g₀ h ((law f).next ((law f).next g .random128 (.ok x))
      (.createExclusive control (watermarkTempName x)) r) := by
    rcases r with e | i
    · exact hs₁
    · exact hs.grows_to (.create x control _ i)
  refine Task.Keeps.meets_bind (Task.keeps_call ?_ fun r _ => hcreate r).mapErr ?_
  · exact .inr ⟨x, g.drawn, rfl, .inr (.inl ⟨hc, .inl rfl⟩)⟩
  rintro i h g₂ hs₂ ⟨rfl, r, rfl, -, hg₂⟩
  have hne : watermarkTempName x ≠ recoveryLockName := ne_of_dot rfl (by decide)
  have hd : Drafts f g₀ (watermarkTempName x) i h g₂ := by
    refine ⟨hs₂, ⟨i, some (control.path, watermarkTempName x)⟩, ?_, rfl, by rw [hc]⟩
    rw [hg₂]
    exact List.mem_cons_self
  refine Task.meets_bind.mpr (Task.meets_attempt.mpr
    (Task.Meets.mono (writeWatermark_keeps record.encode hc hne hd) fun written h₃ g₃ hs₃ => ?_))
  have hunlink : (unlinkat control (watermarkTempName x)).Preserves (law f) (Calm f g₀) :=
    preserves_call fun h g hc' =>
      ⟨.inr (.inr ⟨hc, ne_of_dot rfl (by decide)⟩), fun _ _ => hc'⟩
  cases written with
  | error e =>
    exact (Task.Preserves.bind (.attempt hunlink) fun _ => preserves_throw _) h₃ g₃ hs₃
  | ok _ =>
    exact (Task.Preserves.mapErr (preserves_call fun _ _ hc => ⟨trivial, fun _ _ => hc⟩))
      h₃ g₃ hs₃

theorem advanceWallWatermarkLocked_keeps {control : Dir} (hc : control.path = controlPath)
    (observed : WallFloor) :
    (advanceWallWatermarkLocked observed control).Preserves (law f) (Calm f g₀) := by
  refine .bind preserves_memory fun h => .bind (preserves_ofOption _ _) fun bucket => ?_
  refine .bind (.mapErr readWallWatermark_keeps) fun wm => ?_
  split
  · exact .bind (preserves_ofOption _ _) fun _ => preserves_pure _
  · refine .bind (preserves_ofOption _ _) fun newSeq => ?_
    exact .bind (replaceWallWatermark_keeps hc _) fun _ => preserves_pure _

theorem stabilizedWallFloor_keeps : stabilizedWallFloor.Preserves (law f) (Calm f g₀) := by
  intro h g hs
  refine Task.Keeps.meets_bind (J := fun control _ _ => control.path = controlPath)
    (openRelative_keeps hs controlPath |>.mono (fun _ _ h => h) fun _ _ _ _ hJ => hJ.2.2).mapErr ?_
  intro control h₁ g₁ hs₁ hc
  have hlock : (tryOfdWriteLock .wallWatermark).Preserves (law f) (Calm f g₀) :=
    preserves_call fun _ _ hc => ⟨trivial, fun _ _ => hc⟩
  have hunlock : (unlockFile .wallWatermark : QueueM Error Unit).Preserves (law f) (Calm f g₀) :=
    preserves_call fun _ _ hc => ⟨trivial, fun _ _ => hc⟩
  refine (Task.Preserves.bind (.mapErr hlock) fun locked => ?_) h₁ g₁ hs₁
  split
  · exact preserves_throw _
  · refine .bind (.attempt ?_) fun _ => .bind hunlock fun _ => Task.preserves_ofExcept _
    refine .bind (authenticatedWallFloorWithAttempts_keeps _) fun observed => ?_
    refine .bind preserves_memory fun _ => .bind (preserves_ofOption _ _) fun _ => ?_
    split
    · exact preserves_pure _
    · exact advanceWallWatermarkLocked_keeps hc observed

/-! ## 4. The floor of a mutation -/

theorem watermarkAuthority_keeps {m : QueueM Error α} (hm : m.Preserves (law f) (Calm f g₀)) :
    (watermarkAuthority m).Preserves (law f) (Calm f g₀) := by
  refine .bind (.attempt hm) fun r => ?_
  cases r with
  | ok a => exact preserves_pure _
  | error e =>
    dsimp only
    split
    · exact preserves_throw _
    · exact .bind (remember_keeps fun _ => rfl) fun _ => preserves_throw _

theorem stabilizeAndCache_keeps : stabilizeAndCache.Preserves (law f) (Calm f g₀) :=
  .bind (watermarkAuthority_keeps stabilizedWallFloor_keeps) fun _ =>
    .bind (remember_keeps fun _ => rfl) fun _ => preserves_pure _

theorem cachedFloor_keeps (cached : WallFloor) (attempts : Nat) :
    (cachedFloor cached attempts).Preserves (law f) (Calm f g₀) := by
  refine .bind (watermarkAuthority_keeps (authenticatedWallFloorWithAttempts_keeps _)) fun _ => ?_
  refine .bind preserves_memory fun _ => .bind (preserves_ofOption _ _) fun _ => ?_
  split
  · exact .bind (remember_keeps fun _ => rfl) fun _ => preserves_pure _
  · exact preserves_pure _

theorem wallFloorForMutationWithAttempts_keeps (attempts : Nat) :
    (wallFloorForMutationWithAttempts attempts).Preserves (law f) (Calm f g₀) := by
  refine .bind preserves_memory fun h => ?_
  split
  · exact stabilizeAndCache_keeps
  · refine .bind (cachedFloor_keeps _ attempts) fun found => ?_
    cases found with
    | none => exact stabilizeAndCache_keeps
    | some floor => exact preserves_pure _

theorem marked_keeps {m : QueueM Error WallFloor} (hm : m.Preserves (law f) (Calm f g₀)) :
    (marked m).Preserves (law f) (Calm f g₀) := by
  have hmark (k : Mark) : (mark k : QueueM Error Unit).Preserves (law f) (Calm f g₀) :=
    preserves_call fun _ _ hc => ⟨trivial, fun _ _ => hc⟩
  refine .bind (hmark _) fun _ => .bind (.attempt hm) fun r => ?_
  cases r with
  | ok floor => exact .bind (hmark _) fun _ => preserves_pure _
  | error e => exact .bind (hmark _) fun _ => preserves_throw _

theorem wallFloorForMutation_keeps : wallFloorForMutation.Preserves (law f) (Calm f g₀) :=
  marked_keeps (wallFloorForMutationWithAttempts_keeps _)

theorem markedStabilized_keeps : (marked stabilizedWallFloor).Preserves (law f) (Calm f g₀) :=
  marked_keeps stabilizedWallFloor_keeps

end SteadQ
