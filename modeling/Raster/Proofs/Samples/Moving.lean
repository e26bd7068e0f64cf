import Raster.Proofs.Samples.Runs

/-!
# Samples moved from view to view

A copy, a mirror image or a rotation is run from one view into another, with rows and samples as far
apart as either of them has it. The run fails before it writes anything, or it fills every sample of
the target from one place of the source and keeps all bytes around them. A copy may have to stop at
the ends of a window that are no words. It does so before it writes.

* `Transfer.Moved` — the bytes of the target after a run that succeeds.

Results: `Transfer.run_eq` (what a run comes to) and `Transfer.run_moves_samples` (when a run succeeds,
and what it leaves either way).
-/

namespace Raster

/-! ## Painted bytes -/

namespace Shape

variable {s : Shape} {bytes : Bytes}

/-- The byte of a painted sample. -/
theorem getElem?_paint_address (fits : s.Fits bytes.size) (value : (x y channel : Nat) → UInt8)
    {x y c : Nat} (hx : x < s.width) (hy : y < s.height) (hc : c < s.channels) :
    (s.paint value bytes)[s.address x y c]? = some (value x y c) := by
  rw [paint_eq_mapIdx fits, Array.getElem?_mapIdx,
    Array.getElem?_eq_getElem (address_lt fits hx hy hc), Option.map_some,
    repaint_address fits hx hy hc]

/-- A byte that belongs to no sample is kept. -/
theorem getElem?_paint_of_notMem (fits : s.Fits bytes.size)
    (value : (x y channel : Nat) → UInt8) {i : Nat}
    (apart : i ∉ (fun p => s.address p.1 p.2.1 p.2.2) '' s.toExtent.places) :
    (s.paint value bytes)[i]? = bytes[i]? := by
  have old (byte : UInt8) : s.repaint value i byte = byte :=
    repaint_of_ne fits (fun x y c hx hy hc at_i => apart ⟨(x, y, c), ⟨hx, hy, hc⟩, at_i⟩) value byte
  rw [paint_eq_mapIdx fits, Array.getElem?_mapIdx]
  cases bytes[i]? with
  | none => rfl
  | some byte => exact congrArg some (old byte)

end Shape

/-! ## Moved samples -/

namespace Transfer

/-- The bytes after samples are moved from one view into another: each sample of the target has the
leading channels of the one at its place in the source and is opaque where that has none, and every
byte that belongs to no sample is kept. -/
structure Moved (t : Transfer) (source target : View) (after : Bytes) : Prop where
  size : after.size = target.bytes.size
  sample : ∀ x y c, x < target.extent.width → y < target.extent.height → c < target.extent.channels →
    after[target.shape.address x y c]? =
      let place := t.place source.extent.size target.extent.size x y
      if c < source.extent.channels then source.byte? place.1 place.2 c else some 255
  kept : ∀ i, i ∉ (fun p => target.shape.address p.1 p.2.1 p.2.2) '' target.extent.places →
    after[i]? = target.bytes[i]?

variable {t : Transfer} {source target : View}

/-- Painting the samples that are pulled from their places moves them. -/
theorem moved_paint (fits : t.Fits source.extent.size target.extent.size) :
    t.Moved source target (target.shape.paint (source.samples.pull target.extent
      (t.place source.extent.size target.extent.size)).value target.bytes) where
  size := Shape.size_paint target.fits _
  sample x y c hx hy hc := by
    obtain ⟨hx', hy'⟩ := place_inside fits hx hy
    rw [Shape.getElem?_paint_address target.fits _ hx hy hc]
    dsimp only
    split
    · next held =>
      rw [source.byte?_eq hx' hy' held]
      exact congrArg some (if_pos held)
    · next lacking => exact congrArg some (if_neg lacking)
  kept _ apart := Shape.getElem?_paint_of_notMem target.fits _ apart

/-- A window that lies in a view ends at words. -/
theorem Fits.inWords {size : Size} (fits : t.Fits source.extent.size size) : t.InWords size := by
  cases t with
  | copy x0 y0 =>
    exact ⟨source.width_inWord.of_le fits.1, source.height_inWord.of_le fits.2⟩
  | mirror axis => exact trivial
  | rotate turns => exact trivial

/-- A run comes to what the kernel draws, unless it stops before that. -/
theorem run_eq (t : Transfer) (source target : View) :
    (Kernel.transfer t).run source target =
      if (Kernel.transfer t).stops source.samples target.extent then none
      else some (target.receive (t.draw source.samples target.extent)) := by
  by_cases words : t.InWords target.extent.size
  · have ready : (Kernel.transfer t).Ready source.extent target.extent := words
    rw [Kernel.run_eq ready, Kernel.stops_eq_false ready.inWords, if_neg Bool.false_ne_true]
    rfl
  · unfold Kernel.run
    split
    · rfl
    · cases drawn : t.draw source.samples target.extent with
      | ok result =>
        obtain ⟨-, fits, -⟩ := draw_eq_ok_iff.1 drawn
        exact absurd (Fits.inWords fits) words
      | error e =>
        have refused : (Kernel.transfer t).draw source.samples target.extent = .error e := drawn
        rw [refused]
        rfl

/-- A run that succeeds has painted what the kernel draws. -/
theorem run_eq_ok_iff {after : Bytes} :
    (Kernel.transfer t).run source target = some (.ok (), after) ↔
      source.samples.Feeds target.extent ∧ t.Fits source.extent.size target.extent.size ∧
        target.shape.paint (source.samples.pull target.extent
          (t.place source.extent.size target.extent.size)).value target.bytes = after := by
  constructor
  · intro done
    rw [run_eq] at done
    split at done
    · cases done
    · cases drawn : t.draw source.samples target.extent with
      | ok result =>
        obtain ⟨feeds, fits, rfl⟩ := draw_eq_ok_iff.1 drawn
        rw [drawn] at done
        obtain ⟨-, rfl⟩ := Prod.mk.inj (Option.some.inj done)
        exact ⟨feeds, fits, rfl⟩
      | error e =>
        rw [drawn] at done
        cases done
  · rintro ⟨feeds, fits, rfl⟩
    have words : t.InWords target.extent.size := Fits.inWords fits
    rw [Kernel.run_eq (show (Kernel.transfer t).Ready source.extent target.extent from words)]
    exact congrArg (fun drawn => some (target.receive drawn))
      (draw_eq_ok_iff.2 ⟨feeds, fits, rfl⟩)

/-- A run that fails has written nothing. -/
theorem eq_bytes_of_run_eq_error {e : Error} {after : Bytes}
    (failed : (Kernel.transfer t).run source target = some (.error e, after)) :
    after = target.bytes := by
  rw [run_eq] at failed
  split at failed
  · cases failed
  · cases drawn : t.draw source.samples target.extent with
    | ok result =>
      rw [drawn] at failed
      cases failed
    | error e' =>
      rw [drawn] at failed
      obtain ⟨-, rfl⟩ := Prod.mk.inj (Option.some.inj failed)
      rfl

/-- A run without a result has stopped before the first row. -/
theorem stops_of_run_eq_none (stopped : (Kernel.transfer t).run source target = none) :
    (Kernel.transfer t).stops source.samples target.extent = true := by
  rw [run_eq] at stopped
  split at stopped
  · assumption
  · cases stopped

/-- Samples moved between views of any strides and channels. A run succeeds exactly if the channels
and the sizes suit; then the samples are moved, each from a place inside of the source, and a mirror
image or a rotation takes every sample of the source once. After a run that fails no byte has changed.
A run has the result that the kernel draws as long as its window ends at words. If it has none, it has
stopped before the first row. -/
theorem run_moves_samples (t : Transfer) (source target : View) :
    let place := fun p : Nat × Nat => t.place source.extent.size target.extent.size p.1 p.2
    let suits := source.samples.Feeds target.extent ∧ t.Fits source.extent.size target.extent.size
    let run := (Kernel.transfer t).run source target
    ((∃ after, run = some (.ok (), after)) ↔ suits) ∧
      (∀ after, run = some (.ok (), after) → t.Moved source target after ∧
        Set.MapsTo place target.extent.size.pixels source.extent.size.pixels ∧
        (t.Whole → Set.BijOn place target.extent.size.pixels source.extent.size.pixels)) ∧
      (∀ e after, run = some (.error e, after) → after = target.bytes) ∧
      (t.InWords target.extent.size →
        run = some (target.receive (t.draw source.samples target.extent))) ∧
      (run = none → (Kernel.transfer t).stops source.samples target.extent = true) := by
  intro place suits run
  refine ⟨⟨?_, ?_⟩, ?_, fun e after => eq_bytes_of_run_eq_error, fun words => Kernel.run_eq words,
    stops_of_run_eq_none⟩
  · rintro ⟨after, done⟩
    obtain ⟨feeds, fits, -⟩ := run_eq_ok_iff.1 done
    exact ⟨feeds, fits⟩
  · rintro ⟨feeds, fits⟩
    exact ⟨_, run_eq_ok_iff.2 ⟨feeds, fits, rfl⟩⟩
  · intro after done
    obtain ⟨-, fits, rfl⟩ := run_eq_ok_iff.1 done
    exact ⟨moved_paint fits, fun p hp => place_inside fits hp.1 hp.2,
      fun whole => bijOn_place whole fits⟩

/-- Two pixels side by side turned into a column with alpha: the rows of the target are five bytes
apart, and the byte between them is kept. Nothing is turned into a view that is as wide. A copy from
the last word on stops. -/
theorem run_moves_samples_column :
    let source : View := ⟨#[1, 2, 3, 0, 4, 5, 6], ⟨⟨2, 1, 3⟩, 8, 4⟩, by decide, rfl⟩
    let target : View := ⟨.replicate 9 9, ⟨⟨1, 2, 4⟩, 5, 4⟩, by decide, rfl⟩
    let wide : View := ⟨.replicate 9 9, ⟨⟨2, 1, 4⟩, 9, 5⟩, by decide, rfl⟩
    (∃ after, (Kernel.transfer (.rotate 1)).run source target = some (.ok (), after) ∧
      after[0]? = some 4 ∧ after[3]? = some 255 ∧ after[4]? = some 9 ∧ after[5]? = some 1) ∧
    (∃ e, (Kernel.transfer (.rotate 1)).run source wide = some (.error e, .replicate 9 9)) ∧
    (Kernel.transfer (.copy (2 ^ 64 - 1) 0)).run source target = none := by
  intro source target wide
  refine ⟨?_, ?_, ?_⟩
  · obtain ⟨done, moved, -⟩ := run_moves_samples (.rotate 1) source target
    obtain ⟨after, ran⟩ := done.2 ⟨.inr ⟨rfl, rfl⟩, rfl⟩
    obtain ⟨⟨-, sample, kept⟩, -⟩ := moved after ran
    have between : 4 ∉ (fun p => target.shape.address p.1 p.2.1 p.2.2) '' target.extent.places := by
      rintro ⟨⟨x, y, c⟩, ⟨hx, hy, hc⟩, at_4⟩
      have hx : x < 1 := hx
      have hc : c < 4 := hc
      have at_4 : y * 5 + x * 4 + c = 4 := at_4
      omega
    exact ⟨after, ran, sample 0 0 0 (by decide) (by decide) (by decide),
      sample 0 0 3 (by decide) (by decide) (by decide), kept 4 between,
      sample 0 1 0 (by decide) (by decide) (by decide)⟩
  · obtain ⟨-, -, -, drawn, -⟩ := run_moves_samples (.rotate 1) source wide
    exact ⟨_, drawn trivial⟩
  · exact if_pos (by decide)

end Transfer

end Raster
