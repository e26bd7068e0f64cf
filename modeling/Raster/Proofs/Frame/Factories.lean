import Raster.Proofs.Frame.Canonical
import Raster.Word

/-!
# What factories accept

A factory compares the strides and the lengths of the memory it is given with the size of the
frame. Whether the grids of the frame lie in that memory is found out again, by other rules, each
time the frame is used. The two agree but for one thing: no factory asks whether the rows of
chroma buffers fit the distance between them.

The lengths and the distances that a caller gives are words, and so are the sums that a factory
compares with them whenever it accepts the memory.

* `Frame.Resolves` — a frame that can be read and written.
* `FrameSource` — memory described as a frame, in each of the ways that there are.
* `FrameSource.ChromaRowsOverlap` — chroma rows that are longer than their distance.
* `FrameSource.InWords`, `FrameSource.sums` — what a caller gives, and what a factory makes of it.

Results: `FrameSource.resolves` (other frames resolve), `FrameSource.refused` (these are refused
for their stride each time they are used) and `FrameSource.sums_inWords` (no sum or product of a
factory that accepts leaves its word).
-/

namespace Raster

/-! ## Frames that resolve -/

/-- The planes of the frame hold all of its grids. -/
def Frame.Resolves (f : Frame) : Prop := ∃ c, f.readable = .ok c ∧ f.writable = .ok c

namespace Frame

variable {f : Frame} {c : Canvas}

theorem Resolves.of_writable (h : f.writable = .ok c) : f.Resolves :=
  ⟨c, readable_iff_writable.2 h, h⟩

theorem Sound.resolves (h : f.Sound) : f.Resolves := by
  obtain ⟨c, hc, -⟩ := h
  exact .of_writable hc

theorem Resolves.exists_picture (h : f.Resolves) : ∃ p, f.picture = .ok p := by
  obtain ⟨c, hc, -⟩ := h
  exact ⟨_, picture_eq_ok.2 ⟨c, hc, rfl⟩⟩

/-- Frames that can be read have a picture. -/
theorem resolves_iff_picture : f.Resolves ↔ ∃ p, f.picture = .ok p := by
  constructor
  · exact Resolves.exists_picture
  · rintro ⟨p, hp⟩
    obtain ⟨c, readable, -⟩ := picture_eq_ok.1 hp
    exact .of_writable (readable_iff_writable.1 readable)

theorem Resolves.stamped (h : f.Resolves) (t : Option Nat) : (f.stamped t).Resolves := h

end Frame

/-! ## Sources of frames -/

/-- The bytes from the first to the last sample of a row of chroma. -/
def YuvBuffers.chromaSpan (b : YuvBuffers) (size : Size) : Nat :=
  (size.halved.width - 1) * b.chroma.pixel + 1

/-- There are several rows of chroma, and they are longer than the distance between them. -/
def YuvBuffers.RowsOverlap (b : YuvBuffers) (size : Size) : Prop :=
  2 ≤ size.halved.height ∧ b.chroma.row < b.chromaSpan size

instance (b : YuvBuffers) (size : Size) : Decidable (b.RowsOverlap size) :=
  inferInstanceAs (Decidable (_ ∧ _))

/-- Memory that a caller describes as a frame. -/
inductive FrameSource where
  /-- Pixels without gaps. -/
  | packed (bytes : Bytes) (size : Size) (format : Format)
  /-- Pixels with a stride of their own. -/
  | rows (bytes : Bytes) (size : Size) (format : Format) (stride : Stride)
  /-- Buffers of luma and chroma. -/
  | components (buffers : YuvBuffers) (size : Size) (format : Format)
  /-- One buffer in the canonical layout. -/
  | canonical (bytes : Bytes) (size : Size) (format : Format)
  /-- The pixels of a decoded image. -/
  | decoded (image : DecodedImage)

namespace FrameSource

/-- The size that the memory is described to have. -/
def size : FrameSource → Size
  | packed _ size _ | rows _ size _ _ | components _ size _ | canonical _ size _ => size
  | decoded image => image.size

/-- The frame that the factory makes. -/
def frame (source : FrameSource) (orientation : Orientation) : Except Error Frame :=
  match source with
  | packed bytes size format => Frame.ofPacked bytes size format orientation
  | rows bytes size format stride => Frame.ofPackedRows bytes size format stride orientation
  | components buffers size format => Frame.ofYuv buffers size format orientation
  | canonical bytes size format => Frame.ofBuffer bytes ⟨size, orientation, format⟩
  | decoded image => image.frame orientation

/-- The memory is given as buffers of luma and chroma, and rows of chroma overlap. -/
def ChromaRowsOverlap : FrameSource → Prop
  | components buffers size _ => buffers.RowsOverlap size
  | _ => False

instance : (source : FrameSource) → Decidable source.ChromaRowsOverlap
  | components buffers size _ => inferInstanceAs (Decidable (buffers.RowsOverlap size))
  | packed .. | rows .. | canonical .. | decoded .. => inferInstanceAs (Decidable False)

/-- The lengths of the memory and the distances of its rows are words. -/
def InWords : FrameSource → Prop
  | packed bytes size format =>
    FitsWord bytes.size ∧ FitsWord (Stride.packed size.width (format.channels.getD 0)).row
  | rows bytes _ _ stride => FitsWord bytes.size ∧ FitsWord stride.row
  | components buffers _ _ =>
    FitsWord buffers.y.size ∧ FitsWord buffers.u.size ∧ FitsWord buffers.v.size
  | canonical bytes _ _ => FitsWord bytes.size
  | decoded image => FitsWord image.pixels.size ∧
      FitsWord (Stride.packed image.size.width image.channels).row

/-- The sums that the factory compares with the memory. None of their parts is larger. -/
def sums : FrameSource → List Nat
  | packed _ size format =>
    let channels := format.channels.getD 0
    [size.width * channels, spannedBytes size (.packed size.width channels) channels]
  | rows _ size format stride =>
    [size.width * stride.pixel, spannedBytes size stride (format.channels.getD 0)]
  | components buffers size _ =>
    [spannedBytes size ⟨buffers.lumaRow, 1⟩ 1, spannedBytes size.halved buffers.chroma 1]
  | canonical _ size format => [byteSize size format]
  | decoded image =>
    [image.size.width * image.channels,
      spannedBytes image.size (.packed image.size.width image.channels) image.channels]

end FrameSource

/-! ## Grids that fit what they span -/

/-- Where there are samples, what is spanned reaches from the first one to the last. -/
theorem spannedBytes_eq {size : Size} (nonempty : size.isEmpty = false) (stride : Stride)
    (channels : Nat) : spannedBytes size stride channels =
      (size.height - 1) * stride.row + ((size.width - 1) * stride.pixel + channels) := by
  rw [spannedBytes, if_neg (by simp [nonempty]), Nat.add_assoc]

/-- Rows that are longer than their distance are refused for it. -/
theorem Shape.check_of_overlap {s : Shape} (length : Nat) (width : 0 < s.width)
    (channels : 0 < s.channels) (pixel : s.channels ≤ s.pixelStride)
    (overlap : s.rowStride < s.rowSpan ∧ 1 < s.height) :
    s.check length = .error (.frame (.invalidStride s.rowStride s.rowSpan s.shownWidth)) := by
  rw [check, if_neg (by omega), if_neg (by omega), if_pos overlap]

namespace Canvas

variable {planes : List Plane} {size : Size} {channels k : Nat} {stride : Stride} {c : Canvas}

/-- A grid lies in a plane that is as long as the grid spans, if its rows do not overlap. -/
theorem inside_of_span (nonempty : size.isEmpty = false)
    (hstride : (planes.getD k default).stride = stride) (positive : 0 < channels)
    (pixel : channels ≤ stride.pixel)
    (row : 1 < size.height → (size.width - 1) * stride.pixel + channels ≤ stride.row)
    (long : spannedBytes size stride channels ≤ (planes.getD k default).bytes.size) :
    (component planes size channels k 0).Inside planes := by
  obtain ⟨width, height⟩ := Size.isEmpty_eq_false.1 nonempty
  rw [spannedBytes_eq nonempty] at long
  subst hstride
  exact ⟨width, height, positive, pixel, row, long⟩

/-- Both checks of a grid complain about rows that overlap. -/
theorem checks_of_overlap (nonempty : size.isEmpty = false)
    (hstride : (planes.getD k default).stride = stride) (positive : 0 < channels)
    (pixel : channels ≤ stride.pixel)
    (overlap : 1 < size.height ∧ stride.row < (size.width - 1) * stride.pixel + channels) :
    let place := component planes size channels k 0
    let fault : Error := .frame (.invalidStride stride.row
      ((size.width - 1) * stride.pixel + channels) (size.width % UInt32.size))
    place.checkRead planes = .error fault ∧ place.checkWrite planes = .error fault := by
  obtain ⟨width, -⟩ := Size.isEmpty_eq_false.1 nonempty
  subst hstride
  have refused (length : Nat) : (component planes size channels k 0).shape.check length = _ :=
    Shape.check_of_overlap length width positive pixel ⟨overlap.2, overlap.1⟩
  refine ⟨?_, refused _⟩
  unfold Component.checkRead
  exact (if_neg (Nat.not_lt_zero _)).trans (refused _)

/-- A fault that both chroma grids have is the fault of the canvas. -/
theorem checks_of_chroma {y u v : Component} {e : Error} (luma : y.Inside planes)
    (blue : u.checkRead planes = .error e ∧ u.checkWrite planes = .error e)
    (red : v.checkRead planes = .error e ∧ v.checkWrite planes = .error e)
    (hc : c = ⟨planes, .yuv y u v⟩) : c.checkRead = .error e ∧ c.checkWrite = .error e := by
  subst hc
  unfold checkRead checkWrite
  dsimp only
  rw [Component.checkRead_eq_ok.2 luma, Component.checkWrite_eq_ok.2 luma, blue.1, blue.2, red.1]
  simp [bind, Except.bind]

end Canvas

/-! ## Packed pixels -/

namespace Frame

variable {bytes : Bytes} {size : Size} {format : Format} {stride : Stride}
  {orientation : Orientation} {f : Frame}

theorem of_checkPacked {channels : Nat} (h : checkPacked bytes size stride channels = .ok ()) :
    channels ≤ stride.pixel ∧ size.width * stride.pixel ≤ stride.row ∧
      spannedBytes size stride channels ≤ bytes.size := by
  obtain ⟨pixel, h⟩ := ite_error_eq_ok.1 h
  obtain ⟨row, h⟩ := ite_error_eq_ok.1 h
  obtain ⟨long, -⟩ := ite_error_eq_ok.1 h
  exact ⟨Nat.not_lt.1 pixel, Nat.not_lt.1 row, Nat.not_lt.1 long⟩

theorem sums_of_ofPackedRows (h : ofPackedRows bytes size format stride orientation = .ok f)
    (length : FitsWord bytes.size) (row : FitsWord stride.row) :
    ∀ sum ∈ [size.width * stride.pixel, spannedBytes size stride (format.channels.getD 0)],
      FitsWord sum := by
  unfold ofPackedRows at h
  cases channels : format.channels with
  | none =>
    rw [channels] at h
    cases h
  | some n =>
    rw [channels] at h
    obtain ⟨checked, -⟩ := check_bind_eq_ok.1 h
    obtain ⟨-, wide, long⟩ := of_checkPacked checked
    simp only [List.forall_mem_cons, List.not_mem_nil, false_implies, implies_true, and_true]
    exact ⟨row.of_le wide, length.of_le long⟩

/-- A frame resolves if its planes need no cutting and hold its grids. -/
theorem resolves_of_separate (separate : f.isContiguousYuv = false)
    (nonempty : f.size.isEmpty = false)
    (inside : (Canvas.ofPlanes f.planes f.size f.format).Inside) : f.Resolves :=
  .of_writable (writable_eq_ok.2 ⟨canvas_of_separate separate nonempty, inside⟩)

theorem resolves_ofPackedRows (nonempty : size.isEmpty = false)
    (h : ofPackedRows bytes size format stride orientation = .ok f) : f.Resolves := by
  unfold ofPackedRows at h
  cases channels : format.channels with
  | none =>
    rw [channels] at h
    cases h
  | some n =>
    rw [channels] at h
    obtain ⟨checked, hf⟩ := check_bind_eq_ok.1 h
    obtain ⟨planes, metadata, -⟩ := planes_of_ofPlanes hf
    obtain ⟨rfl, -, rfl⟩ := Metadata.mk.inj metadata
    obtain ⟨pixel, row, span⟩ := of_checkPacked checked
    obtain ⟨width, -⟩ := Size.isEmpty_eq_false.1 nonempty
    have packed : f.format.isYuv = false := by
      rw [Format.isYuv_eq_channels_isNone f.format_ne_unknown, channels]
      rfl
    refine resolves_of_separate (by rw [isContiguousYuv, packed, Bool.false_and]) nonempty ?_
    unfold Canvas.Inside
    simp only [Canvas.ofPlanes, channels, Components.list, List.mem_singleton, forall_eq]
    have last_pixel := sub_one_mul_add width stride.pixel
    have rows : (f.size.width - 1) * stride.pixel + n ≤ stride.row := by omega
    rw [planes]
    have positive := Format.channels_pos channels
    exact Canvas.inside_of_span nonempty rfl positive pixel (fun _ => rows) span

/-! ## Luma and chroma -/

variable {b : YuvBuffers}

theorem of_checkSpan (h : checkSpan bytes size stride = .ok ()) :
    spannedBytes size stride 1 ≤ bytes.size := Nat.not_lt.1 (ite_error_eq_ok.1 h).1

/-- What the factory of luma and chroma buffers has checked. -/
theorem of_ofYuv (h : ofYuv b size format orientation = .ok f) :
    (size.isEmpty = false ∧ format.isYuv = true ∧ size.width ≤ b.lumaRow) ∧
      (spannedBytes size ⟨b.lumaRow, 1⟩ 1 ≤ b.y.size ∧
        spannedBytes size.halved b.chroma 1 ≤ b.u.size ∧
          spannedBytes size.halved b.chroma 1 ≤ b.v.size) ∧
        f.planes = b.planes format ∧ f.metadata = ⟨size, orientation, format⟩ := by
  obtain ⟨half, hhalf, h⟩ := bind_eq_ok.1 h
  obtain ⟨nonempty, yuv, rfl⟩ := chromaSize_of_ok hhalf
  obtain ⟨row, h⟩ := ite_error_eq_ok.1 h
  obtain ⟨luma, h⟩ := check_bind_eq_ok.1 h
  obtain ⟨blue, h⟩ := check_bind_eq_ok.1 h
  obtain ⟨red, h⟩ := check_bind_eq_ok.1 h
  obtain ⟨planes, metadata, -⟩ := planes_of_ofPlanes h
  exact ⟨⟨nonempty, yuv, Nat.not_lt.1 row⟩, ⟨of_checkSpan luma, of_checkSpan blue,
    of_checkSpan red⟩, planes, metadata⟩

/-- A plane of chroma samples, as long as their grid spans. -/
structure HoldsChroma (f : Frame) (b : YuvBuffers) (k : Nat) : Prop where
  stride : (f.planes.getD k default).stride = b.chroma
  long : spannedBytes f.size.halved b.chroma 1 ≤ (f.planes.getD k default).bytes.size

/-- The three grids of luma and chroma buffers. Nothing is said of the rows of chroma. -/
theorem canvas_ofYuv (h : ofYuv b size format orientation = .ok f) :
    f.size = size ∧ f.size.isEmpty = false ∧ 0 < b.chroma.pixel ∧
      (Canvas.component f.planes f.size 1 0 0).Inside f.planes ∧ ∃ u v,
        f.canvas = .ok ⟨f.planes, .yuv (Canvas.component f.planes f.size 1 0 0)
          (Canvas.component f.planes f.size.halved 1 u 0)
          (Canvas.component f.planes f.size.halved 1 v 0)⟩ ∧
        f.HoldsChroma b u ∧ f.HoldsChroma b v := by
  obtain ⟨⟨nonempty, yuv, row⟩, ⟨luma, blue, red⟩, planes, metadata⟩ := of_ofYuv h
  obtain ⟨rfl, -, rfl⟩ := Metadata.mk.inj metadata
  have channels := (Format.channels_eq_none_iff f.format_ne_unknown).2 yuv
  have count : f.planes.length = 3 := by
    rw [planes, YuvBuffers.planes]
    split <;> rfl
  have separate : f.isContiguousYuv = false := by
    rw [isContiguousYuv, count]
    exact Bool.and_false _
  have holds (k : Nat) (hk : k = 1 ∨ k = 2) : f.HoldsChroma b k := by
    rw [YuvBuffers.planes] at planes
    split at planes
    · rcases hk with rfl | rfl
      · exact ⟨by rw [planes]; rfl, by rw [planes]; exact blue⟩
      · exact ⟨by rw [planes]; rfl, by rw [planes]; exact red⟩
    · rcases hk with rfl | rfl
      · exact ⟨by rw [planes]; rfl, by rw [planes]; exact red⟩
      · exact ⟨by rw [planes]; rfl, by rw [planes]; exact blue⟩
  have positive : 0 < b.chroma.pixel := by
    have member : ⟨b.u, b.chroma⟩ ∈ f.planes := by
      rw [planes, YuvBuffers.planes]
      split <;> simp
    exact (Stride.hasZero_eq_false.1 (f.strides_positive _ member)).2
  have full : (Canvas.component f.planes f.size 1 0 0).Inside f.planes := by
    rw [planes]
    obtain ⟨width, -⟩ := Size.isEmpty_eq_false.1 nonempty
    have rows : (f.size.width - 1) * 1 + 1 ≤ b.lumaRow := by omega
    have stride : ((b.planes f.format).getD 0 default).stride = ⟨b.lumaRow, 1⟩ := rfl
    exact Canvas.inside_of_span nonempty stride Nat.one_pos (Nat.le_refl _) (fun _ => rows) luma
  obtain ⟨u, v, order, canvas⟩ := Canvas.ofPlanes_planar f.size channels count
  refine ⟨rfl, nonempty, positive, full, u, v, ?_, holds u (by omega), holds v (by omega)⟩
  rw [canvas_of_separate separate nonempty, canvas]

theorem resolves_ofYuv (h : ofYuv b size format orientation = .ok f)
    (apart : ¬b.RowsOverlap size) : f.Resolves := by
  obtain ⟨rfl, nonempty, positive, luma, u, v, canvas, blue, red⟩ := canvas_ofYuv h
  have half : f.size.halved.isEmpty = false := by rwa [Size.isEmpty_halved]
  have rows (several : 1 < f.size.halved.height) :
      (f.size.halved.width - 1) * b.chroma.pixel + 1 ≤ b.chroma.row :=
    Nat.not_lt.1 fun short => apart ⟨several, short⟩
  have chroma {k : Nat} (holds : f.HoldsChroma b k) :
      (Canvas.component f.planes f.size.halved 1 k 0).Inside f.planes :=
    Canvas.inside_of_span half holds.stride Nat.one_pos positive rows holds.long
  refine .of_writable (writable_eq_ok.2 ⟨canvas, ?_⟩)
  simp only [Canvas.Inside, Components.list, List.mem_cons, List.not_mem_nil, or_false,
    forall_eq_or_imp, forall_eq]
  exact ⟨luma, chroma blue, chroma red⟩

theorem refused_ofYuv (h : ofYuv b size format orientation = .ok f)
    (overlap : b.RowsOverlap size) :
    let fault : Error := .frame (.invalidStride b.chroma.row (b.chromaSpan size)
      (size.halved.width % UInt32.size))
    f.readable = .error fault ∧ f.writable = .error fault := by
  obtain ⟨rfl, nonempty, positive, luma, u, v, canvas, blue, red⟩ := canvas_ofYuv h
  have half : f.size.halved.isEmpty = false := by rwa [Size.isEmpty_halved]
  have refused {k : Nat} (holds : f.HoldsChroma b k) :=
    Canvas.checks_of_overlap half holds.stride Nat.one_pos positive overlap
  obtain ⟨read, write⟩ := Canvas.checks_of_chroma luma (refused blue) (refused red) rfl
  constructor
  · rw [readable, canvas]
    show Canvas.checkRead _ >>= _ = _
    rw [read]
    rfl
  · rw [writable, canvas]
    show Canvas.checkWrite _ >>= _ = _
    rw [write]
    rfl

end Frame

/-- The format of a decoded image has its channels. -/
theorem DecodedImage.channels_of_format {image : DecodedImage} {format : Format}
    (h : image.format = .ok format) : format.channels.getD 0 = image.channels := by
  unfold DecodedImage.format at h
  split at h
  · next one =>
    obtain rfl := Except.ok.inj h
    exact one.symm
  · next three =>
    obtain rfl := Except.ok.inj h
    exact three.symm
  · next four =>
    obtain rfl := Except.ok.inj h
    exact four.symm
  · cases h

/-! ## All factories -/

namespace FrameSource

variable {source : FrameSource} {orientation : Orientation} {f : Frame}

/-- A frame that a factory accepts resolves, if it has samples and its chroma rows do not
overlap. -/
theorem resolves (accepted : source.frame orientation = .ok f)
    (nonempty : source.size.isEmpty = false) (apart : ¬source.ChromaRowsOverlap) : f.Resolves := by
  cases source with
  | packed bytes size format => exact Frame.resolves_ofPackedRows nonempty accepted
  | rows bytes size format stride => exact Frame.resolves_ofPackedRows nonempty accepted
  | components buffers size format => exact Frame.resolves_ofYuv accepted apart
  | canonical bytes size format => exact (Frame.sound_ofBuffer accepted).resolves
  | decoded image =>
    obtain ⟨format, -, hf⟩ := bind_eq_ok.1 accepted
    exact Frame.resolves_ofPackedRows nonempty hf

/-- A factory that accepts memory described in words has made no sum that is not a word. -/
theorem sums_inWords (accepted : source.frame orientation = .ok f) (words : source.InWords) :
    ∀ sum ∈ source.sums, FitsWord sum := by
  cases source with
  | packed bytes size format => exact Frame.sums_of_ofPackedRows accepted words.1 words.2
  | rows bytes size format stride => exact Frame.sums_of_ofPackedRows accepted words.1 words.2
  | components buffers size format =>
    obtain ⟨-, ⟨luma, blue, -⟩, -⟩ := Frame.of_ofYuv accepted
    simp only [sums, List.forall_mem_cons, List.not_mem_nil, false_implies, implies_true, and_true]
    exact ⟨words.1.of_le luma, words.2.1.of_le blue⟩
  | canonical bytes size format =>
    obtain ⟨-, long, -⟩ := Frame.ofBuffer_eq_ok.1 accepted
    simp only [sums, List.forall_mem_cons, List.not_mem_nil, false_implies, implies_true, and_true]
    exact words.of_le long
  | decoded image =>
    obtain ⟨format, hformat, accepted⟩ := bind_eq_ok.1 accepted
    have sums := Frame.sums_of_ofPackedRows accepted words.1
    rw [DecodedImage.channels_of_format hformat] at sums
    exact sums words.2

/-- Chroma rows that overlap are accepted, and refused for their stride when the frame is used. -/
theorem refused (accepted : source.frame orientation = .ok f) (overlap : source.ChromaRowsOverlap) :
    ∃ stride least width, f.readable = .error (.frame (.invalidStride stride least width)) ∧
      f.writable = .error (.frame (.invalidStride stride least width)) := by
  cases source with
  | components buffers size format => exact ⟨_, _, _, Frame.refused_ofYuv accepted overlap⟩
  | packed bytes size format => exact overlap.elim
  | rows bytes size format stride => exact overlap.elim
  | canonical bytes size format => exact overlap.elim
  | decoded image => exact overlap.elim

end FrameSource

end Raster
