import Mathlib.Data.List.Forall2
import Raster.Proofs.Frame.Paint

/-!
# Frames and the parts of their memory

A frame is read and written through its expanded planes. Replacing the bytes of the
expanded planes by as many others replaces them in the frame: expanded again, the
frame has exactly the new planes (`expandedPlanes_withParts`), and putting back what
was there changes nothing (`withParts_expandedPlanes`).

A cut depends on the lengths of the pieces only (`cut_join`), and a longer buffer only
lengthens the pieces (`cut_append`).
-/

namespace Raster

/-! ## Cutting -/

/-- The first bytes of one buffer are another. -/
def StartsWith (long short : Bytes) : Prop := ∃ tail, long = short ++ tail

theorem StartsWith.refl (bytes : Bytes) : StartsWith bytes bytes := ⟨#[], by simp⟩

theorem StartsWith.getD {long short : Bytes} (h : StartsWith long short) {i : Nat}
    (hi : i < short.size) : long.getD i 0 = short.getD i 0 := by
  obtain ⟨tail, rfl⟩ := h
  rw [Array.getD_eq_getD_getElem?, Array.getD_eq_getD_getElem?, Array.getElem?_append_left hi]

theorem size_join_of_sizes {pieces pieces' : List Bytes}
    (h : pieces'.map Array.size = pieces.map Array.size) : (join pieces').size = (join pieces).size := by
  induction pieces generalizing pieces' with
  | nil => rw [List.map_eq_nil_iff.1 h]
  | cons piece rest ih =>
    cases pieces' with
    | nil => cases h
    | cons piece' rest' =>
      obtain ⟨hpiece, hrest⟩ := List.cons.inj h
      rw [join_cons, join_cons, Array.size_append, Array.size_append, hpiece, ih hrest]

theorem cutFrom_join {bytes : Bytes} {start : Nat} {stops : List Nat} {pieces pieces' : List Bytes}
    (increasing : (start :: stops).Pairwise (· ≤ ·)) (h : cutFrom bytes start stops = .ok pieces)
    (sizes : pieces'.map Array.size = pieces.map Array.size) (before : Bytes)
    (place : before.size = start) : cutFrom (before ++ join pieces') start stops = .ok pieces' := by
  induction stops generalizing start pieces pieces' before with
  | nil =>
    cases h
    cases pieces' with
    | nil => cases sizes
    | cons piece rest =>
      obtain ⟨-, hrest⟩ := List.cons.inj sizes
      rw [List.map_eq_nil_iff.1 hrest]
      simp [cutFrom, ← place, Array.extract_append]
  | cons stop rest ih =>
    obtain ⟨fits, tail, htail, rfl⟩ := cutFrom_cons_of_ok h
    have hstop : start ≤ stop := List.rel_of_pairwise_cons increasing (by simp)
    cases pieces' with
    | nil => cases sizes
    | cons piece others =>
      obtain ⟨hpiece, hothers⟩ := List.cons.inj sizes
      rw [Array.size_extract] at hpiece
      have next : (before ++ piece).size = stop := by
        rw [Array.size_append]
        omega
      have cut_rest := ih (List.pairwise_cons.1 increasing).2 htail hothers _ next
      rw [Array.append_assoc] at cut_rest
      have first : (before ++ (piece ++ join others)).extract start stop = piece := by
        rw [← next, ← place]
        simp [Array.extract_append]
      rw [cutFrom, join_cons, if_neg (by simp only [Array.size_append] at next ⊢; omega), cut_rest,
        first]
      rfl

/-- Pieces of the same lengths come from a cut of what they make up. -/
theorem cut_join {bytes : Bytes} {layout : List PlaneLayout} {pieces pieces' : List Bytes}
    (increasing : (layout.tail.map (·.offset)).Pairwise (· ≤ ·)) (h : cut bytes layout = .ok pieces)
    (sizes : pieces'.map Array.size = pieces.map Array.size) :
    cut (join pieces') layout = .ok pieces' := by
  have from_start := cutFrom_join (by simpa using increasing) h sizes #[] rfl
  simpa [cut] using from_start

theorem cutFrom_append {bytes : Bytes} (tail : Bytes) {start : Nat} {stops : List Nat}
    {pieces : List Bytes} (fits : start ≤ bytes.size) (h : cutFrom bytes start stops = .ok pieces) :
    ∃ pieces', cutFrom (bytes ++ tail) start stops = .ok pieces' ∧
      List.Forall₂ StartsWith pieces' pieces := by
  induction stops generalizing start pieces with
  | nil =>
    cases h
    refine ⟨_, rfl, .cons ⟨tail, ?_⟩ .nil⟩
    rw [Array.size_append, Array.extract_append, Nat.sub_eq_zero_of_le fits,
      Nat.add_sub_cancel_left, Array.extract_eq_self_of_le (Nat.le_refl _)]
    congr 1
    apply Array.ext_getElem?
    intro i
    simp only [Array.getElem?_extract]
    grind
  | cons stop rest ih =>
    obtain ⟨hstop, others, hothers, rfl⟩ := cutFrom_cons_of_ok h
    obtain ⟨others', hcut, longer⟩ := ih hstop hothers
    refine ⟨bytes.extract start stop :: others', ?_, .cons (.refl _) longer⟩
    rw [cutFrom, if_neg (by rw [Array.size_append]; omega), hcut, Array.extract_append,
      Nat.sub_eq_zero_of_le hstop, Array.extract_zero, Array.append_empty]
    rfl

/-- A longer buffer is cut into longer pieces. -/
theorem cut_append {bytes : Bytes} (tail : Bytes) {layout : List PlaneLayout} {pieces : List Bytes}
    (h : cut bytes layout = .ok pieces) :
    ∃ pieces', cut (bytes ++ tail) layout = .ok pieces' ∧ List.Forall₂ StartsWith pieces' pieces :=
  cutFrom_append tail (Nat.zero_le _) h

/-- Buffers of the same length are cut into pieces of the same lengths. -/
theorem cutFrom_of_size {bytes bytes' : Bytes} (size : bytes'.size = bytes.size) {start : Nat}
    {stops : List Nat} {pieces : List Bytes} (h : cutFrom bytes start stops = .ok pieces) :
    ∃ pieces', cutFrom bytes' start stops = .ok pieces' ∧
      pieces'.map Array.size = pieces.map Array.size := by
  induction stops generalizing start pieces with
  | nil =>
    cases h
    exact ⟨_, rfl, by simp [size]⟩
  | cons stop rest ih =>
    obtain ⟨fits, others, hothers, rfl⟩ := cutFrom_cons_of_ok h
    obtain ⟨others', hcut, sizes⟩ := ih hothers
    refine ⟨bytes'.extract start stop :: others', ?_, ?_⟩
    · rw [cutFrom, if_neg (by omega), hcut]
      rfl
    · rw [List.map_cons, List.map_cons, sizes, Array.size_extract, Array.size_extract, size]

theorem yuvPlanes_increasing (size : Size) (format : Format) (row : Nat) :
    ((yuvPlanes size format row).tail.map (·.offset)).Pairwise (· ≤ ·) := by
  unfold yuvPlanes
  split <;> simp

theorem yuvPlanes_ne_nil (size : Size) (format : Format) (row : Nat) :
    yuvPlanes size format row ≠ [] := by
  unfold yuvPlanes
  split <;> simp

/-! ## Expansion -/

/-- Planes of a cut with as many bytes come from a cut of what they make up. -/
theorem cutPlanes_join {bytes : Bytes} {layout : List PlaneLayout} {planes planes' : List Plane}
    (nonempty : layout ≠ []) (increasing : (layout.tail.map (·.offset)).Pairwise (· ≤ ·))
    (h : cutPlanes bytes layout = .ok planes)
    (room : planes'.map Plane.room = planes.map Plane.room) :
    cutPlanes (join (planes'.map (·.bytes))) layout = .ok planes' := by
  obtain ⟨hcut, hstride⟩ := cutPlanes_of_ok nonempty h
  have strides := (Plane.strides_of_room room).trans hstride
  rw [cutPlanes, cut_join increasing hcut (Plane.sizes_of_room room)]
  show Except.ok _ = Except.ok _
  congr 1
  have length := congrArg List.length strides
  simp only [List.length_map] at length
  apply List.ext_getElem
  · simp [length]
  · intro i h1 h2
    have hi : i < layout.length := by omega
    have stride : planes'[i].stride = layout[i].stride := by
      have := congrArg (fun strides => strides[i]?) strides
      simpa [h2, hi] using this
    simp [← stride]

/-- Planes of the same room are cut into planes of the same room. -/
theorem cutPlanes_of_room {plane plane' : Plane} {layout : List PlaneLayout} {planes : List Plane}
    (nonempty : layout ≠ []) (room : plane'.room = plane.room)
    (h : cutPlanes plane.bytes layout = .ok planes) :
    ∃ planes', cutPlanes plane'.bytes layout = .ok planes' ∧
      planes'.map Plane.room = planes.map Plane.room := by
  obtain ⟨pieces, strides⟩ := cutPlanes_of_ok nonempty h
  obtain ⟨pieces', hpieces', sizes⟩ := cutFrom_of_size (congrArg Prod.snd room) pieces
  have h' : cutPlanes plane'.bytes layout = .ok _ := bind_eq_ok.2 ⟨pieces', hpieces', rfl⟩
  obtain ⟨again, strides'⟩ := cutPlanes_of_ok nonempty h'
  have same := Except.ok.inj (hpieces'.symm.trans again)
  refine ⟨_, h', ?_⟩
  rw [Plane.map_room, Plane.map_room, strides', strides, ← same, sizes]

namespace Frame

/-- A frame with other bytes is determined by its planes. -/
theorem planes_withBuffers {f : Frame} {buffers : List Bytes} {planes : List Plane}
    (room : planes.map Plane.room = f.planes.map Plane.room)
    (h : planes.map (·.bytes) = buffers) : (f.withBuffers buffers).planes = planes := by
  subst h
  have length := congrArg List.length room
  simp only [List.length_map] at length
  apply List.ext_getElem
  · simp [withBuffers, length]
  · intro i h1 h2
    have hi : i < f.planes.length := by omega
    have stride : planes[i].stride = f.planes[i].stride := by
      have := congrArg (fun rooms => (rooms[i]?).map Prod.fst) room
      simpa [h2, hi, Plane.room] using this
    simp [withBuffers, h2, ← stride]

theorem withBuffers_buffers (f : Frame) : f.withBuffers f.buffers = f := by
  have planes : (f.withBuffers f.buffers).planes = f.planes := planes_withBuffers rfl rfl
  cases f
  simp only [withBuffers] at planes ⊢
  congr

theorem expandedPlanes_of_contiguous {f : Frame} (h : f.isContiguousYuv = true) :
    ∃ plane, f.planes = [plane] ∧ f.expandedPlanes =
      yuvLayout f.size f.format plane.stride.row >>= fun layout => cutPlanes plane.bytes layout := by
  simp only [isContiguousYuv, Bool.and_eq_true, beq_iff_eq] at h
  obtain ⟨plane, hplane⟩ := List.length_eq_one_iff.1 h.2
  refine ⟨plane, hplane, ?_⟩
  simp only [expandedPlanes, h.1, hplane]

/-- The expanded planes of a contiguous frame are cut from its only plane. -/
theorem cutPlanes_of_contiguous {f : Frame} {planes : List Plane} (h : f.isContiguousYuv = true)
    (hplanes : f.expandedPlanes = .ok planes) : ∃ plane, f.planes = [plane] ∧
      yuvLayout f.size f.format plane.stride.row =
        .ok (yuvPlanes f.size f.format plane.stride.row) ∧
      cutPlanes plane.bytes (yuvPlanes f.size f.format plane.stride.row) = .ok planes ∧
      join (planes.map (·.bytes)) = plane.bytes := by
  obtain ⟨plane, hplane, expanded⟩ := expandedPlanes_of_contiguous h
  rw [expanded] at hplanes
  obtain ⟨layout, hlayout, hcut⟩ := bind_eq_ok.1 hplanes
  obtain ⟨-, -, rfl⟩ := yuvLayout_of_ok hlayout
  obtain ⟨pieces, -⟩ := cutPlanes_of_ok (yuvPlanes_ne_nil _ _ _) hcut
  exact ⟨plane, hplane, hlayout, hcut, join_of_cut (yuvPlanes_increasing _ _ _) pieces⟩

theorem expandedPlanes_of_separate {f : Frame} (h : f.isContiguousYuv = false) :
    f.expandedPlanes = .ok f.planes := by
  unfold expandedPlanes
  split
  · next plane yuv hplanes => simp [isContiguousYuv, yuv, hplanes] at h
  · rfl

/-- The expanded planes of a YUV frame are luma and interleaved chroma, or three planes. -/
theorem length_expandedPlanes {f : Frame} {planes : List Plane} (yuv : f.format.isYuv = true)
    (h : f.expandedPlanes = .ok planes) : planes.length = 2 ∨ planes.length = 3 := by
  cases contiguous : f.isContiguousYuv with
  | true =>
    obtain ⟨plane, -, -, hcut, -⟩ := cutPlanes_of_contiguous contiguous h
    have strides := (cutPlanes_of_ok (yuvPlanes_ne_nil _ _ _) hcut).2
    have count := congrArg List.length strides
    rw [List.length_map, List.length_map] at count
    rw [count]
    unfold yuvPlanes
    split
    · exact .inl rfl
    · exact .inr rfl
  | false =>
    rw [expandedPlanes_of_separate contiguous] at h
    obtain rfl := Except.ok.inj h
    have several : f.planes.length ≠ 1 := by simpa [isContiguousYuv, yuv] using contiguous
    have accepted := f.accepts_count
    revert yuv accepted
    unfold Format.acceptsPlaneCount
    cases f.format <;> simp [Format.isYuv] <;> omega

@[simp] theorem isContiguousYuv_withParts (f : Frame) (parts : List Bytes) :
    (f.withParts parts).isContiguousYuv = f.isContiguousYuv := by
  simp [isContiguousYuv, withParts, withBuffers]

/-- New bytes in the expanded planes are the bytes of the planes expanded again. -/
theorem expandedPlanes_withParts {f : Frame} {planes planes' : List Plane}
    (h : f.expandedPlanes = .ok planes) (room : planes'.map Plane.room = planes.map Plane.room) :
    (f.withParts (planes'.map (·.bytes))).expandedPlanes = .ok planes' := by
  cases contiguous : f.isContiguousYuv with
  | false =>
    rw [expandedPlanes_of_separate contiguous] at h
    cases h
    rw [expandedPlanes_of_separate (by simpa using contiguous), withParts, contiguous]
    exact congrArg Except.ok (planes_withBuffers room rfl)
  | true =>
    obtain ⟨plane, hplane, hlayout, hcut, -⟩ := cutPlanes_of_contiguous contiguous h
    obtain ⟨plane', hplane', hexp'⟩ := expandedPlanes_of_contiguous
      (f := f.withParts (planes'.map (·.bytes))) (by simpa using contiguous)
    simp only [withParts, contiguous, if_true, withBuffers, hplane, List.mapIdx_cons,
      List.mapIdx_nil, List.getD_cons_zero, List.cons.injEq, and_true] at hplane'
    rw [hexp', ← hplane']
    show yuvLayout f.size f.format plane.stride.row >>= _ = _
    rw [hlayout]
    exact cutPlanes_join (yuvPlanes_ne_nil _ _ _) (yuvPlanes_increasing _ _ _) hcut room

/-- Putting the expanded planes back changes nothing. -/
theorem withParts_expandedPlanes {f : Frame} {planes : List Plane}
    (h : f.expandedPlanes = .ok planes) : f.withParts (planes.map (·.bytes)) = f := by
  cases contiguous : f.isContiguousYuv with
  | false =>
    rw [expandedPlanes_of_separate contiguous] at h
    cases h
    rw [withParts, contiguous]
    exact f.withBuffers_buffers
  | true =>
    obtain ⟨plane, hplane, -, -, whole⟩ := cutPlanes_of_contiguous contiguous h
    have buffers : f.buffers = [plane.bytes] := by simp [Frame.buffers, hplane]
    rw [withParts, contiguous, if_pos rfl, whole, ← buffers]
    exact f.withBuffers_buffers

/-- New bytes in the expanded planes leave the room of the planes as it is. -/
theorem room_withParts {f : Frame} {planes planes' : List Plane} (h : f.expandedPlanes = .ok planes)
    (room : planes'.map Plane.room = planes.map Plane.room) :
    (f.withParts (planes'.map (·.bytes))).planes.map Plane.room = f.planes.map Plane.room := by
  cases contiguous : f.isContiguousYuv with
  | false =>
    rw [expandedPlanes_of_separate contiguous] at h
    obtain rfl := Except.ok.inj h
    rw [withParts, contiguous, if_neg (by decide), planes_withBuffers room rfl, room]
  | true =>
    obtain ⟨plane, hplane, -, -, whole⟩ := cutPlanes_of_contiguous contiguous h
    have size := size_join_of_sizes (Plane.sizes_of_room room)
    rw [whole] at size
    rw [withParts, contiguous, if_pos rfl]
    simp only [withBuffers, hplane, List.mapIdx_cons, List.mapIdx_nil, List.getD_cons_zero,
      List.map_cons, List.map_nil, Plane.room, size]

/-- The bytes of a frame are those of its expanded planes. -/
theorem memory_of_expandedPlanes {f : Frame} {planes : List Plane}
    (h : f.expandedPlanes = .ok planes) : f.memory = join (planes.map (·.bytes)) := by
  cases contiguous : f.isContiguousYuv with
  | false =>
    rw [expandedPlanes_of_separate contiguous] at h
    obtain rfl := Except.ok.inj h
    rfl
  | true =>
    obtain ⟨plane, hplane, -, -, whole⟩ := cutPlanes_of_contiguous contiguous h
    rw [whole, memory, buffers, hplane]
    exact Array.append_empty

/-- Frames of the same metadata and room are expanded into planes of the same room. -/
theorem expandedPlanes_of_room {f g : Frame} {planes : List Plane}
    (metadata : g.metadata = f.metadata)
    (room : g.planes.map Plane.room = f.planes.map Plane.room)
    (h : f.expandedPlanes = .ok planes) :
    ∃ planes', g.expandedPlanes = .ok planes' ∧ planes'.map Plane.room = planes.map Plane.room := by
  obtain ⟨size, -, format⟩ := Metadata.mk.inj metadata
  have length := congrArg List.length room
  rw [List.length_map, List.length_map] at length
  have same : g.isContiguousYuv = f.isContiguousYuv := by
    rw [isContiguousYuv, isContiguousYuv, format, length]
  cases contiguous : f.isContiguousYuv with
  | false =>
    rw [expandedPlanes_of_separate contiguous] at h
    obtain rfl := Except.ok.inj h
    exact ⟨_, expandedPlanes_of_separate (same.trans contiguous), room⟩
  | true =>
    obtain ⟨plane, hplane, hlayout, hcut, -⟩ := cutPlanes_of_contiguous contiguous h
    obtain ⟨plane', hplane', expanded⟩ := expandedPlanes_of_contiguous (same.trans contiguous)
    rw [hplane, hplane'] at room
    have room : plane'.room = plane.room := (List.cons.inj room).1
    have stride : plane'.stride = plane.stride := congrArg Prod.fst room
    rw [expanded, size, format, stride, hlayout]
    exact cutPlanes_of_room (yuvPlanes_ne_nil _ _ _) room hcut

/-! ## Regions -/

variable {f region : Frame} {size : Size}

/-- The planes of a region are the expanded planes of the whole frame. -/
theorem expandedPlanes_of_topLeft (h : f.topLeft size = .ok region) :
    f.expandedPlanes = .ok region.planes := by
  obtain ⟨-, h⟩ := ite_error_eq_ok.1 h
  split at h
  · cases h
  · next planes expanded =>
    cases h
    exact expanded

/-- A region as it was, put back into its frame, changes nothing. -/
theorem withRegion_topLeft (h : f.topLeft size = .ok region) : f.withRegion region = f :=
  withParts_expandedPlanes (expandedPlanes_of_topLeft h)

/-- A region has the capture time of its frame. -/
theorem topLeft_stamped (f : Frame) (size : Size) (t : Option Nat) :
    (f.stamped t).topLeft size = (f.topLeft size).map (·.stamped t) := by
  have size_eq : (f.stamped t).size = f.size := rfl
  have same : (f.stamped t).expandedPlanes = f.expandedPlanes := rfl
  unfold topLeft
  rw [size_eq]
  by_cases h : size.isEmpty = true ∨ f.size.width < size.width ∨ f.size.height < size.height
  · rw [if_pos h, if_pos h]
    rfl
  · rw [if_neg h, if_neg h]
    split
    · next e failed =>
      rw [same] at failed
      split
      · next e' failed' =>
        rw [failed] at failed'
        cases failed'
        rfl
      · next planes expanded =>
        rw [failed] at expanded
        cases expanded
    · next planes expanded =>
      rw [same] at expanded
      split
      · next e failed =>
        rw [expanded] at failed
        cases failed
      · next planes' expanded' =>
        rw [expanded] at expanded'
        cases expanded'
        rfl

/-! ## Frames of one pixel -/

/-- A gray frame of one pixel. -/
def grayDot (value : UInt8) : Frame :=
  ⟨[⟨#[value], ⟨1, 1⟩⟩], ⟨1, 1⟩, .gray, .topLeft, none, rfl, by simp [Stride.hasZero]⟩

/-- A colour frame of one pixel. -/
def rgbDot (r g b : UInt8) : Frame :=
  ⟨[⟨#[r, g, b], ⟨3, 3⟩⟩], ⟨1, 1⟩, .rgb, .topLeft, none, rfl, by simp [Stride.hasZero]⟩

/-- A frame of one pixel with interleaved chroma. -/
def nv12Dot (y u v : UInt8) : Frame :=
  ⟨[⟨#[y], ⟨1, 1⟩⟩, ⟨#[u, v], ⟨2, 2⟩⟩], ⟨1, 1⟩, .nv12, .topLeft, none, rfl, by simp [Stride.hasZero]⟩

end Frame

end Raster
