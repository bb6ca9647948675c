import Residency.Packer.Image
import Residency.Proofs.Volume.Archive

/-!
# Commands on an image

A command that is run on an image starts with a volume that shows the image, and the cache is saved
behind it.  `onImage_leaves` says what this makes of the image: the sectors that the volume shows in
the end, and behind them what was there before.
-/

namespace Residency.Packer

variable {image : HostFile} {N : Nat} {step : Step (Volume FileDisk) Outcome}

/-- A step on an image, and the saving of the cache behind it, end without a fault. -/
def EndsCleanly (image : HostFile) (sectors : Nat) (step : Step (Volume FileDisk) Outcome) : Prop :=
  Step.Yields (step >>= fun _ => Volume.flush) (.mount { file := image } (.empty sectors))
    fun _ _ => True

theorem shows_mount (fits : N * sectorSize ≤ image.size) (map : Bitmap) :
    (Volume.mount { file := image } map).Shows (FileDisk.storage image N fits)
      (fun s => image.kept s.toNat) map {} := by
  have serves : (FileDisk.storage image N fits).Serves { file := image } :=
    ⟨rfl, rfl, fun _ _ => rfl⟩
  exact Volume.shows_mount (FileDisk.storage image N fits) serves map

/-- What a command that ends without a fault leaves behind. -/
theorem onImage_leaves {fits : N * sectorSize ≤ image.size} (addressable : N ≤ UInt32.size)
    {done : Outcome → (SectorNo → Sector) → Prop}
    (yields : Step.Yields step (.mount { file := image } (.empty N)) fun outcome after =>
      ∃ sectors map files, done outcome sectors ∧
        after.Shows (FileDisk.storage image N fits) sectors map files) :
    EndsCleanly image N step ∧ ∃ sectors, done (onImage image N step).1 sectors ∧
      (onImage image N step).2.bytes =
        sectorBytes (fun index => sectors (.ofNat index)) N ++ image.bytes.drop (N * sectorSize) := by
  -- the command and the saving of the cache are run one after the other, whatever the outcome says
  obtain ⟨outcome, after, run, sectors, map, files, holds, isShown⟩ := yields.run
  obtain ⟨_, saved, flushRun, isSaved, device⟩ := (Volume.flush_yields isShown).run
  constructor
  · apply Step.Yields.bind yields
    intro _ reached ended
    obtain ⟨_, _, _, _, isReached⟩ := ended
    exact Step.Yields.imp (Volume.flush_yields isReached) fun _ _ _ => trivial
  · have result : onImage image N step = (outcome, saved.cache.device.file) := by
      rw [onImage, run]
      simp only [flushRun]
    rw [result]
    refine ⟨sectors, holds, ?_⟩
    rw [FileDisk.bytes_of_serves addressable isSaved.coherent.serves, device]

end Residency.Packer
