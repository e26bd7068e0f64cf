import Raster.Mask
import Raster.Proofs.Engine.Tensor
import Raster.Proofs.Orientation.Scene

/-!
# Masks as oriented frames

A mask asks of each of its pixels which tensor pixel lies behind it. Orienting a frame goes the
other way and takes each pixel to its new place. Both give the same picture, since the change of
orientation that a mask looks back along undoes the one that the frame is taken through.

* `Size.index` — the place of a pixel in a list of all pixels, row by row.
* `MaskRemap.place` — the tensor pixel behind a mask pixel, without the check that it is one.

Results: `MaskRemap.bijOn_place` (every tensor pixel lies behind one mask pixel),
`MaskRemap.remap_perm` (a mask keeps all values), `Engine.orient_lists` (what an oriented gray
frame lists) and `MaskRemap.remap_is_orient` (masks are oriented frames).
-/

namespace Raster

/-! ## Lists -/

section

variable {α β : Type}

/-- A list is what its places hold. -/
theorem filterMap_range_getElem? (l : List α) :
    (List.range l.length).filterMap (fun i => l[i]?) = l := by
  induction l with
  | nil => rfl
  | cons a rest ih =>
    rw [List.length_cons, List.range_succ_eq_map, List.filterMap_cons, List.filterMap_map]
    exact congrArg (a :: ·) ih

/-- Where nothing is left out, each entry is that of the same place. -/
theorem getElem?_filterMap_of_some {f : α → Option β} {l : List α} {i : Nat} {a : α}
    (all : ∀ a ∈ l, ∃ b, f a = some b) (h : l[i]? = some a) : (l.filterMap f)[i]? = f a := by
  induction l generalizing i with
  | nil => cases h
  | cons head rest ih =>
    obtain ⟨b, hb⟩ := all head List.mem_cons_self
    rw [List.filterMap_cons_some hb]
    cases i with
    | zero =>
      obtain rfl := Option.some.inj h
      exact hb.symm
    | succ i => exact ih (fun a member => all a (List.mem_cons_of_mem _ member)) h

end

/-! ## Pixels row by row -/

/-- The place of a pixel among the pixels of a grid, row by row. -/
def Size.index (s : Size) (p : Nat × Nat) : Nat := p.2 * s.width + p.1

section

variable {s : Size} {p q : Nat × Nat}

theorem Size.index_lt (h : p ∈ s.pixels) : s.index p < s.area := by
  rw [area, Nat.mul_comm]
  exact mul_add_lt_mul h.2 h.1

theorem Size.index_inj (hp : p ∈ s.pixels) (hq : q ∈ s.pixels) (same : s.index p = s.index q) :
    p = q := by
  obtain ⟨rows, columns⟩ := Shape.eq_of_mul_add_eq hp.1 hq.1 same
  exact Prod.ext columns rows

namespace MaskRemap

theorem mem_pixelsOf : p ∈ pixelsOf s ↔ p ∈ s.pixels := by
  obtain ⟨x, y⟩ := p
  simp [pixelsOf, Size.pixels, and_comm]

/-- Counted row by row, the pixels take one place after the other. -/
theorem map_index_pixelsOf (s : Size) : (pixelsOf s).map s.index = List.range s.area := by
  obtain ⟨width, height⟩ := s
  unfold pixelsOf Size.area
  dsimp only
  -- one more row takes the places after those of the rows before
  suffices rows : ∀ n, ((List.range n).flatMap fun y => (List.range width).map fun x => (x, y)).map
      (Size.index ⟨width, height⟩) = List.range (n * width) by
    rw [rows, Nat.mul_comm]
  intro n
  induction n with
  | zero => rw [Nat.zero_mul]; rfl
  | succ n ih =>
    rw [List.range_succ, List.flatMap_append, List.map_append, ih, Nat.succ_mul, List.range_add,
      List.flatMap_singleton, List.map_map]
    rfl

theorem length_pixelsOf (s : Size) : (pixelsOf s).length = s.area := by
  rw [← List.length_map s.index, map_index_pixelsOf, List.length_range]

theorem nodup_pixelsOf (s : Size) : (pixelsOf s).Nodup := by
  apply List.Nodup.of_map s.index
  rw [map_index_pixelsOf]
  exact List.nodup_range

theorem getElem?_pixelsOf (h : p ∈ s.pixels) : (pixelsOf s)[s.index p]? = some p := by
  have counted : ((pixelsOf s).map s.index)[s.index p]? = some (s.index p) := by
    rw [map_index_pixelsOf, List.getElem?_range (Size.index_lt h)]
  rw [List.getElem?_map, Option.map_eq_some_iff] at counted
  obtain ⟨q, hq, same⟩ := counted
  have member : q ∈ s.pixels := mem_pixelsOf.1 (List.mem_of_getElem? hq)
  rw [hq, Size.index_inj member h same]

/-- The values at all pixels, row by row, are all values. -/
theorem filterMap_pixelsOf {α : Type} {values : Array α} (full : values.size = s.area) :
    (pixelsOf s).filterMap (fun q => values[s.index q]?) = values.toList := by
  have counted : ((pixelsOf s).map s.index).filterMap (fun i => values.toList[i]?) =
      values.toList := by
    rw [map_index_pixelsOf, ← full, ← Array.length_toList, filterMap_range_getElem?]
  rw [List.filterMap_map] at counted
  simpa [Function.comp_def] using counted

/-! ## Tensor pixels behind mask pixels -/

variable {r : MaskRemap}

/-- The tensor pixel behind a mask pixel. -/
def place (r : MaskRemap) (p : Nat × Nat) : Nat × Nat :=
  (Reorientation.between .topLeft r.orientation).point r.maskSize p.1 p.2

theorem orientedSize_maskSize (r : MaskRemap) :
    orientedSize r.maskSize .topLeft r.orientation = r.tensorSize := by
  show orientedSize (orientedSize r.tensorSize r.orientation .topLeft) .topLeft r.orientation = _
  rw [orientedSize_trans, orientedSize, Reorientation.between_self]
  rfl

theorem tensorPoint_eq_ok : r.tensorPoint p.1 p.2 = .ok q ↔ p ∈ r.maskSize.pixels ∧ r.place p = q :=
  orientPoint_eq_ok

/-- Every tensor pixel lies behind one mask pixel. -/
theorem bijOn_place (r : MaskRemap) : Set.BijOn r.place r.maskSize.pixels r.tensorSize.pixels := by
  have bij := (Motion.ofChange (.between .topLeft r.orientation)).bijOn r.maskSize
  rw [Motion.size_ofChange] at bij
  simp only [Motion.point_ofChange] at bij
  have lands : (Reorientation.between .topLeft r.orientation).size r.maskSize = r.tensorSize :=
    r.orientedSize_maskSize
  rw [lands] at bij
  exact bij

/-- Orienting the tensor upright takes that pixel to the mask pixel. -/
theorem point_place (h : p ∈ r.maskSize.pixels) :
    (Reorientation.between r.orientation .topLeft).point r.tensorSize (r.place p).1 (r.place p).2 =
      p := by
  have back := Reorientation.point_trans .topLeft r.orientation .topLeft h.1 h.2
  rw [orientedSize_maskSize, Reorientation.between_self] at back
  exact back

theorem perm_place (r : MaskRemap) :
    ((pixelsOf r.maskSize).map r.place).Perm (pixelsOf r.tensorSize) := by
  have bij := r.bijOn_place
  have distinct : ((pixelsOf r.maskSize).map r.place).Nodup :=
    (nodup_pixelsOf _).map_on fun p hp q hq same =>
      bij.injOn (mem_pixelsOf.1 hp) (mem_pixelsOf.1 hq) same
  apply (List.perm_ext_iff_of_nodup distinct (nodup_pixelsOf _)).2
  intro q
  rw [List.mem_map, mem_pixelsOf, ← bij.image_eq]
  simp only [mem_pixelsOf, Set.mem_image]

/-! ## Masks -/

section

variable {α : Type} {values : Array α} {mask : List α}

theorem exists_value (full : values.size = r.tensorSize.area) (h : q ∈ r.tensorSize.pixels) :
    ∃ v, values[r.tensorSize.index q]? = some v := by
  have inside : r.tensorSize.index q < values.size := full ▸ Size.index_lt h
  exact ⟨_, Array.getElem?_eq_getElem inside⟩

/-- As many values as the tensor has pixels are looked up behind all mask pixels. -/
theorem remap_eq (full : values.size = r.tensorSize.area) :
    r.remap values = .ok (((pixelsOf r.maskSize).map r.place).filterMap fun q =>
      values[r.tensorSize.index q]?) := by
  have points : ((pixelsOf r.maskSize).mapM fun p => r.tensorPoint p.1 p.2) =
      .ok ((pixelsOf r.maskSize).map r.place) :=
    mapM_eq_pure fun p member => tensorPoint_eq_ok.2 ⟨mem_pixelsOf.1 member, rfl⟩
  rw [remap, if_pos full, points]
  rfl

theorem remap_error_iff : (∃ e, r.remap values = .error e) ↔ values.size ≠ r.tensorSize.area := by
  constructor
  · rintro ⟨e, refused⟩ full
    rw [remap_eq full] at refused
    cases refused
  · intro short
    exact ⟨_, if_neg short⟩

theorem size_of_remap (h : r.remap values = .ok mask) : values.size = r.tensorSize.area := by
  by_contra short
  obtain ⟨e, refused⟩ := remap_error_iff.2 short
  rw [refused] at h
  cases h

/-- A mask keeps all values. -/
theorem remap_perm (h : r.remap values = .ok mask) : mask.Perm values.toList := by
  have full := size_of_remap h
  rw [remap_eq full] at h
  obtain rfl := Except.ok.inj h
  rw [← filterMap_pixelsOf full]
  exact r.perm_place.filterMap _

/-- At each pixel a mask has the value of the tensor pixel behind it. -/
theorem getElem?_remap (h : r.remap values = .ok mask) (hp : p ∈ r.maskSize.pixels) :
    mask[r.maskSize.index p]? = values[r.tensorSize.index (r.place p)]? := by
  have full := size_of_remap h
  rw [remap_eq full] at h
  obtain rfl := Except.ok.inj h
  rw [List.filterMap_map]
  apply getElem?_filterMap_of_some
  · intro p member
    exact exists_value full (r.bijOn_place.mapsTo (mem_pixelsOf.1 member))
  · exact getElem?_pixelsOf hp

theorem length_remap (h : r.remap values = .ok mask) : mask.length = r.maskSize.area := by
  have same := (remap_perm h).length_eq.trans (Array.length_toList.trans (size_of_remap h))
  have sizes := r.perm_place.length_eq
  rw [List.length_map, length_pixelsOf, length_pixelsOf] at sizes
  exact same.trans sizes.symm

end

end MaskRemap

end

/-! ## Oriented frames -/

section

variable {r : MaskRemap} {values : Bytes} {mask : List UInt8} {input output : Frame}
  {source : Picture} {n : Nat}

/-- An oriented packed frame holds the bytes of each pixel where the change takes the pixel. -/
theorem Engine.orient_pixelByte (packed : input.format.channels = some n)
    (hsource : input.picture = .ok source) (sound : output.Sound)
    (format : output.format = input.format)
    (size : output.size = orientedSize input.size input.orientation output.orientation) :
    let turned : Outcome := software.orient input output
    turned.status = .ok () ∧ ∀ x y k, x < input.size.width → y < input.size.height → k < n →
      let q := (Reorientation.between input.orientation output.orientation).point input.size x y
      turned.frame.pixelByte q.1 q.2 k = input.pixelByte x y k := by
  intro turned
  have ⟨target, htarget, _⟩ := sound
  have carried := orient_carries hsource htarget (by rw [format, Format.compatible_refl]) size
  refine ⟨carried.status, fun x y k hx hy hk => ?_⟩
  obtain ⟨shown, hshown, moved⟩ :=
    carried.shows sound (size.trans (Motion.size_ofChange _ _).symm)
  obtain ⟨-, -, shown_format⟩ := Metadata.mk.inj carried.metadata
  obtain ⟨s, rfl, extent, value⟩ := Frame.value_eq_pixelByte packed hsource
  have shown_packed : turned.frame.format.channels = some n := by
    rw [shown_format, ← packed, ← format]
  have kept := Frame.pixelByte_of_carried shown_packed hshown moved
    (congrArg Extent.channels extent) hx hy hk
  rw [Motion.point_ofChange, value] at kept
  exact kept

/-- The values of a tensor, oriented upright as a gray frame, are the mask. -/
theorem MaskRemap.lists_orient (h : r.remap values = .ok mask)
    (hinput : input.metadata = ⟨r.tensorSize, r.orientation, .gray⟩) (resolves : input.Resolves)
    (listed : input.Lists 1 values) (houtput : output.metadata = ⟨r.maskSize, .topLeft, .gray⟩)
    (sound : output.Sound) :
    let upright : Outcome := Engine.software.orient input output
    upright.status = .ok () ∧ upright.frame.Lists 1 mask.toArray := by
  intro upright
  obtain ⟨input_size, input_orientation, input_format⟩ := Metadata.mk.inj hinput
  obtain ⟨output_size, output_orientation, output_format⟩ := Metadata.mk.inj houtput
  obtain ⟨source, hsource⟩ := resolves.exists_picture
  obtain ⟨done, bytes⟩ := Engine.orient_pixelByte (n := 1) (congrArg Format.channels input_format)
    hsource sound (output_format.trans input_format.symm)
    (by rw [output_size, output_orientation, input_size, input_orientation]; rfl)
  have size : upright.frame.size = r.maskSize :=
    (congrArg Metadata.size (Engine.orient_lawful.metadata input output)).trans output_size
  refine ⟨done, ⟨?_, fun x y k hx hy hk => ?_⟩⟩
  · rw [size, List.size_toArray, length_remap h, Nat.mul_one, Nat.mul_comm, Size.area]
  · rw [size] at hx hy ⊢
    obtain rfl : k = 0 := by omega
    -- the pixel comes from the tensor pixel behind it
    have member : ((x, y) : Nat × Nat) ∈ r.maskSize.pixels := ⟨hx, hy⟩
    obtain ⟨tensor_x, tensor_y⟩ := r.bijOn_place.mapsTo member
    have oriented := bytes _ _ 0 (by rw [input_size]; exact tensor_x)
      (by rw [input_size]; exact tensor_y) hk
    rw [input_size, input_orientation, output_orientation, r.point_place member] at oriented
    have value := listed.value _ _ 0 (by rw [input_size]; exact tensor_x)
      (by rw [input_size]; exact tensor_y) hk
    have behind := getElem?_remap h member
    rw [input_size] at value
    rw [oriented, ← value]
    simp only [Nat.mul_one, Nat.add_zero, Array.getD_eq_getD_getElem?, List.getElem?_toArray]
    exact congrArg (·.getD 0) behind

/-- In canonical frames the mask is the memory that orienting leaves. -/
theorem MaskRemap.memory_orient {buffer : Bytes} (h : r.remap values = .ok mask)
    (hinput : Frame.ofBuffer values ⟨r.tensorSize, r.orientation, .gray⟩ = .ok input)
    (houtput : Frame.ofBuffer buffer ⟨r.maskSize, .topLeft, .gray⟩ = .ok output) :
    let upright : Outcome := Engine.software.orient input output
    upright.status = .ok () ∧ upright.frame.memory.extract 0 r.maskSize.area = mask.toArray := by
  intro upright
  have hin := Frame.metadata_ofBuffer hinput
  have hout := Frame.metadata_ofBuffer houtput
  have resolves := (Frame.sound_ofBuffer hinput).resolves
  have sound := Frame.sound_ofBuffer houtput
  -- the frame lists all values
  have all : values.extract 0 (r.tensorSize.height * (r.tensorSize.width * 1)) = values := by
    apply Array.extract_eq_self_of_le
    rw [size_of_remap h, Size.area, Nat.mul_one, Nat.mul_comm]
  have listed := Frame.lists_of_ofBuffer (n := 1) rfl hinput
  rw [all] at listed
  obtain ⟨done, mask_listed⟩ := lists_orient h hin resolves listed hout sound
  -- and the memory begins with what the oriented frame lists
  obtain ⟨image, drawn, -⟩ := (Engine.orient_paints input).exists_image done
  have memory := Engine.lists_of_draws (n := 1) rfl houtput drawn
  refine ⟨done, ?_⟩
  rw [Size.area, Nat.mul_comm, ← Nat.mul_one r.maskSize.width]
  exact memory.unique mask_listed

end

/-- A mask is refused exactly if there are not as many values as the tensor has pixels. Else it
holds all of them, each at the mask pixel that the tensor pixel lies behind, and there is one such
mask pixel for each tensor pixel. A mask of bytes is what a gray frame of the values shows upright:
its pixels are listed by the oriented frame, and are its memory where the frames are canonical. -/
theorem MaskRemap.remap_is_orient (r : MaskRemap) :
    (∀ {α : Type} (values : Array α),
      ((∃ e, r.remap values = .error e) ↔ values.size ≠ r.tensorSize.area) ∧
        ∀ mask, r.remap values = .ok mask → mask.Perm values.toList ∧
          ∀ p ∈ r.maskSize.pixels, mask[r.maskSize.index p]? =
            values[r.tensorSize.index (r.place p)]?) ∧
    (∀ p q, r.tensorPoint p.1 p.2 = .ok q ↔ p ∈ r.maskSize.pixels ∧ r.place p = q) ∧
    Set.BijOn r.place r.maskSize.pixels r.tensorSize.pixels ∧
    ∀ values : Bytes, values.size = r.tensorSize.area → r.tensorSize.isEmpty = false →
      ∃ mask, r.remap values = .ok mask ∧
        (∀ input output : Frame, input.metadata = ⟨r.tensorSize, r.orientation, .gray⟩ →
          input.Resolves → input.Lists 1 values →
          output.metadata = ⟨r.maskSize, .topLeft, .gray⟩ → output.Sound →
          let upright : Outcome := Engine.software.orient input output
          upright.status = .ok () ∧ upright.frame.Lists 1 mask.toArray) ∧
        ∀ buffer : Bytes, r.maskSize.area ≤ buffer.size → ∃ input output : Frame,
          Frame.ofBuffer values ⟨r.tensorSize, r.orientation, .gray⟩ = .ok input ∧
          Frame.ofBuffer buffer ⟨r.maskSize, .topLeft, .gray⟩ = .ok output ∧
          let upright : Outcome := Engine.software.orient input output
          upright.status = .ok () ∧
            upright.frame.memory.extract 0 r.maskSize.area = mask.toArray := by
  refine ⟨fun values => ⟨remap_error_iff, fun mask h => ⟨remap_perm h, fun p => getElem?_remap h⟩⟩,
    fun p q => tensorPoint_eq_ok, r.bijOn_place, fun values full nonempty => ?_⟩
  have mask_nonempty : r.maskSize.isEmpty = false := by
    have turned := (Motion.ofChange (.between r.orientation .topLeft)).isEmpty_size nonempty
    rwa [Motion.size_ofChange] at turned
  refine ⟨_, remap_eq full, ?lists, ?memory⟩
  case lists =>
    intro input output hinput resolves listed houtput sound
    exact lists_orient (remap_eq full) hinput resolves listed houtput sound
  case memory =>
    intro buffer long
    obtain ⟨input, hinput⟩ := Frame.ofBuffer_ok (m := ⟨r.tensorSize, r.orientation, .gray⟩)
      nonempty nofun (Nat.le_of_eq full.symm)
    obtain ⟨output, houtput⟩ := Frame.ofBuffer_ok (m := ⟨r.maskSize, .topLeft, .gray⟩)
      mask_nonempty nofun long
    exact ⟨input, output, hinput, houtput, memory_orient (remap_eq full) hinput houtput⟩

/-- Two rows of three values, the first row of which is the right side of the scene. -/
theorem MaskRemap.remap_is_orient_rows :
    let r : MaskRemap := ⟨⟨3, 2⟩, .rightTop⟩
    ∃ input output : Frame,
      Frame.ofBuffer #[0, 1, 2, 3, 4, 5] ⟨⟨3, 2⟩, .rightTop, .gray⟩ = .ok input ∧
      Frame.ofBuffer (.replicate 6 0) ⟨⟨2, 3⟩, .topLeft, .gray⟩ = .ok output ∧
      r.remap (#[0, 1, 2, 3, 4, 5] : Bytes) = .ok [3, 0, 4, 1, 5, 2] ∧
      let upright : Outcome := Engine.software.orient input output
      upright.status = .ok () ∧ upright.frame.memory.extract 0 6 = #[3, 0, 4, 1, 5, 2] := by
  obtain ⟨-, -, -, bytes⟩ := remap_is_orient ⟨⟨3, 2⟩, .rightTop⟩
  obtain ⟨mask, hmask, -, memory⟩ := bytes #[0, 1, 2, 3, 4, 5] rfl rfl
  have known : (⟨⟨3, 2⟩, .rightTop⟩ : MaskRemap).remap (#[0, 1, 2, 3, 4, 5] : Bytes) =
      .ok [3, 0, 4, 1, 5, 2] := by decide +kernel
  obtain rfl := Except.ok.inj (known.symm.trans hmask)
  obtain ⟨input, output, hinput, houtput, done, same⟩ := memory (.replicate 6 0) (by decide)
  exact ⟨input, output, hinput, houtput, known, done, same⟩

end Raster
