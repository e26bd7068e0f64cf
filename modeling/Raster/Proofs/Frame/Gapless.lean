import Raster.Proofs.Frame.Canonical

/-!
# Frames without gaps

A canonical frame over a buffer of exactly its size has no byte between samples, between rows
or after the last plane: every byte belongs to a sample. So two such frames that show the same
picture are the same bytes.

Results: `bytes_eq_of_address` (rows without gaps that agree at every address are equal),
`Canvas.read_of_agree` (pictures that agree read alike, grid by grid) and
`Frame.bytes_eq_of_agree` (canonical frames of exactly their size that show pictures that agree
have the same bytes).
-/

namespace Raster

/-! ## Every byte has an address -/

/-- Buffers of one length that hold the same bytes are equal. -/
theorem bytes_ext {a b : Bytes} (size : a.size = b.size)
    (same : ∀ i < a.size, a.getD i 0 = b.getD i 0) : a = b := by
  apply Array.ext
  · exact size
  · intro i hi hi'
    have at_i := same i hi
    rwa [Array.getD_eq_getD_getElem?, Array.getD_eq_getD_getElem?, Array.getElem?_eq_getElem hi,
      Array.getElem?_eq_getElem hi'] at at_i

/-- Every byte of rows without gaps belongs to a channel of a sample. -/
theorem exists_address {width height pixel i : Nat} (h : i < height * (width * pixel)) :
    ∃ x y c, x < width ∧ y < height ∧ c < pixel ∧ i = y * (width * pixel) + x * pixel + c := by
  have row : 0 < width * pixel := Nat.pos_of_lt_mul_left h
  have positive : 0 < pixel := Nat.pos_of_mul_pos_left row
  have within : i % (width * pixel) < width * pixel := Nat.mod_lt i row
  refine ⟨i % (width * pixel) / pixel, i / (width * pixel), i % (width * pixel) % pixel,
    Nat.div_lt_of_lt_mul (by rwa [Nat.mul_comm pixel]), Nat.div_lt_of_lt_mul (by rwa [Nat.mul_comm]),
    Nat.mod_lt _ positive, ?_⟩
  rw [Nat.add_assoc, Nat.div_add_mod', Nat.div_add_mod']

/-- Two buffers of such rows that agree at every address are equal. -/
theorem bytes_eq_of_address {a b : Bytes} {width height pixel : Nat}
    (ha : a.size = height * (width * pixel)) (hb : b.size = height * (width * pixel))
    (agree : ∀ x y c, x < width → y < height → c < pixel →
      a.getD (y * (width * pixel) + x * pixel + c) 0 =
        b.getD (y * (width * pixel) + x * pixel + c) 0) : a = b := by
  refine bytes_ext (ha.trans hb.symm) fun i hi => ?_
  obtain ⟨x, y, c, hx, hy, hc, rfl⟩ := exists_address (ha ▸ hi)
  exact agree x y c hx hy hc

namespace Component

variable {planes planes' : List Plane} {size : Size} {k : Nat}

/-- A plane whose only grid has the channels of its pixel stride is what the grid reads. -/
theorem bytes_eq_of_read {channels : Nat}
    (agree : ((Canvas.component planes size channels k 0).read planes).Agree
      ((Canvas.component planes size channels k 0).read planes'))
    (hstride : (planes.getD k default).stride = ⟨size.width * channels, channels⟩)
    (long : (planes.getD k default).bytes.size = size.height * (size.width * channels))
    (long' : (planes'.getD k default).bytes.size = size.height * (size.width * channels)) :
    (planes.getD k default).bytes = (planes'.getD k default).bytes := by
  refine bytes_eq_of_address long long' fun x y c hx hy hc => ?_
  have same := agree.value x y c hx hy hc
  simpa only [read, Shape.read, bytes, Canvas.component, Shape.address, hstride, Nat.zero_add]
    using same

/-- A plane of pairs is what its two grids read. -/
theorem bytes_eq_of_read_pair {first second : Nat} (turns : first + second = 1)
    (agree : ((Canvas.component planes size 1 k first).read planes).Agree
      ((Canvas.component planes size 1 k first).read planes'))
    (agree' : ((Canvas.component planes size 1 k second).read planes).Agree
      ((Canvas.component planes size 1 k second).read planes'))
    (hstride : (planes.getD k default).stride = ⟨size.width * 2, 2⟩)
    (long : (planes.getD k default).bytes.size = size.height * (size.width * 2))
    (long' : (planes'.getD k default).bytes.size = size.height * (size.width * 2)) :
    (planes.getD k default).bytes = (planes'.getD k default).bytes := by
  refine bytes_eq_of_address long long' fun x y c hx hy hc => ?_
  -- the byte belongs to the grid that starts at byte `c` of the plane
  obtain rfl | rfl : c = first ∨ c = second := by omega
  · have same := agree.value x y 0 hx hy Nat.one_pos
    simpa only [read, Shape.read, bytes, Canvas.component, Shape.address, hstride, Nat.add_zero,
      Nat.add_comm c] using same
  · have same := agree'.value x y 0 hx hy Nat.one_pos
    simpa only [read, Shape.read, bytes, Canvas.component, Shape.address, hstride, Nat.add_zero,
      Nat.add_comm c] using same

end Component

/-! ## Pictures that agree -/

/-- Where pictures of the same places agree, each grid reads alike. -/
theorem Canvas.read_of_agree {c c' : Canvas} (same : c'.components = c.components)
    (agree : c.picture.Agree c'.picture) :
    ∀ place ∈ c.components.list, (place.read c.planes).Agree (place.read c'.planes) := by
  unfold picture at agree
  rw [same] at agree
  cases h : c.components with
  | packed pixels =>
    rw [h] at agree
    cases agree with
    | packed grid => simpa [Components.list] using grid
  | yuv y u v =>
    rw [h] at agree
    cases agree with
    | yuv luma blue red => simpa [Components.list] using ⟨luma, blue, red⟩

namespace Frame

variable {bytes bytes' : Bytes} {f g : Frame}

/-- Frames of one layout that show pictures that agree read alike, grid by grid. -/
theorem read_of_agree {m : Metadata} {p q : Picture} (hf : ofBuffer bytes m = .ok f)
    (hg : ofBuffer bytes' m = .ok g) (hp : f.picture = .ok p) (hq : g.picture = .ok q)
    (agree : p.Agree q) :
    ∀ place ∈ (Canvas.ofPlanes f.planes m.size m.format).components.list,
      (place.read f.planes).Agree (place.read g.planes) := by
  have places := components_ofPlanes m.size m.format (strides_of_ofBuffer hf hg)
  have shown := canvas_ofBuffer hf
  have shown' := canvas_ofBuffer hg
  obtain rfl := metadata_ofBuffer hf
  have metadata := metadata_ofBuffer hg
  obtain ⟨size, -, format⟩ := Metadata.mk.inj metadata
  rw [picture_eq_ok.2 ⟨_, shown, rfl⟩] at hp
  rw [picture_eq_ok.2 ⟨_, shown', rfl⟩, size, format] at hq
  obtain rfl := Except.ok.inj hp
  obtain rfl := Except.ok.inj hq
  exact Canvas.read_of_agree places agree

section Planes

variable {size : Size} {planes planes' : List Plane} {format : Format}
  (reads : ∀ place ∈ (Canvas.ofPlanes planes size format).components.list,
    (place.read planes).Agree (place.read planes'))

include reads

/-- Pixels, all in one plane. -/
theorem bytes_eq_of_packed {n : Nat} (channels : format.channels = some n)
    (hplanes : planes = [⟨bytes, ⟨size.width * n, n⟩⟩])
    (hplanes' : planes' = [⟨bytes', ⟨size.width * n, n⟩⟩])
    (exact_size : bytes.size = size.width * size.height * n)
    (exact_size' : bytes'.size = size.width * size.height * n) : bytes = bytes' := by
  have rows : size.width * size.height * n = size.height * (size.width * n) := by
    rw [Nat.mul_assoc, Nat.mul_left_comm]
  have pixels := reads (Canvas.component planes size n 0 0)
    (by simp [Canvas.ofPlanes, channels, Components.list])
  subst hplanes hplanes'
  exact Component.bytes_eq_of_read pixels rfl (exact_size.trans rows) (exact_size'.trans rows)

/-- Luma, and interleaved chroma. -/
theorem planes_eq_of_semiPlanar {luma luma' chroma chroma' : Bytes}
    (channels : format.channels = none)
    (hplanes : planes = [⟨luma, ⟨size.width, 1⟩⟩, ⟨chroma, ⟨size.halved.width * 2, 2⟩⟩])
    (hplanes' : planes' = [⟨luma', ⟨size.width, 1⟩⟩, ⟨chroma', ⟨size.halved.width * 2, 2⟩⟩])
    (luma_size : luma.size = size.width * size.height ∧ luma'.size = size.width * size.height)
    (chroma_size : chroma.size = 2 * (size.halved.width * size.halved.height) ∧
      chroma'.size = 2 * (size.halved.width * size.halved.height)) : planes = planes' := by
  have count : planes.length = 2 := by
    rw [hplanes]
    rfl
  obtain ⟨first, second, turns, canvas⟩ := Canvas.ofPlanes_interleaved size channels count
  rw [canvas] at reads
  have row : size.width = size.width * 1 := (Nat.mul_one _).symm
  have rows : size.width * size.height = size.height * (size.width * 1) := by
    rw [Nat.mul_one, Nat.mul_comm]
  have pairs : 2 * (size.halved.width * size.halved.height) =
      size.halved.height * (size.halved.width * 2) := by
    rw [← Nat.mul_assoc, Nat.mul_comm 2, Nat.mul_comm]
  have full := reads (Canvas.component planes size 1 0 0) (by simp [Components.list])
  have blue := reads (Canvas.component planes size.halved 1 1 first) (by simp [Components.list])
  have red := reads (Canvas.component planes size.halved 1 1 second) (by simp [Components.list])
  subst hplanes hplanes'
  have same_luma : luma = luma' := Component.bytes_eq_of_read full
    (congrArg (fun row => (⟨row, 1⟩ : Stride)) row) (luma_size.1.trans rows)
    (luma_size.2.trans rows)
  have same_chroma : chroma = chroma' := Component.bytes_eq_of_read_pair turns blue red rfl
    (chroma_size.1.trans pairs) (chroma_size.2.trans pairs)
  rw [same_luma, same_chroma]

/-- Luma, and one chroma grid after the other. -/
theorem planes_eq_of_planar {luma luma' first first' second second' : Bytes}
    (channels : format.channels = none)
    (hplanes : planes = [⟨luma, ⟨size.width, 1⟩⟩, ⟨first, ⟨size.halved.width, 1⟩⟩,
      ⟨second, ⟨size.halved.width, 1⟩⟩])
    (hplanes' : planes' = [⟨luma', ⟨size.width, 1⟩⟩, ⟨first', ⟨size.halved.width, 1⟩⟩,
      ⟨second', ⟨size.halved.width, 1⟩⟩])
    (luma_size : luma.size = size.width * size.height ∧ luma'.size = size.width * size.height)
    (first_size : first.size = size.halved.width * size.halved.height ∧
      first'.size = size.halved.width * size.halved.height)
    (second_size : second.size = size.halved.width * size.halved.height ∧
      second'.size = size.halved.width * size.halved.height) : planes = planes' := by
  have count : planes.length = 3 := by
    rw [hplanes]
    rfl
  obtain ⟨u, v, order, canvas⟩ := Canvas.ofPlanes_planar size channels count
  rw [canvas] at reads
  have stride (s : Size) : (⟨s.width, 1⟩ : Stride) = ⟨s.width * 1, 1⟩ := by rw [Nat.mul_one]
  have rows (s : Size) : s.width * s.height = s.height * (s.width * 1) := by
    rw [Nat.mul_one, Nat.mul_comm]
  have full := reads (Canvas.component planes size 1 0 0) (by simp [Components.list])
  have chroma (k : Nat) (hk : k = 1 ∨ k = 2) :
      ((Canvas.component planes size.halved 1 k 0).read planes).Agree
        ((Canvas.component planes size.halved 1 k 0).read planes') := by
    refine reads _ ?_
    obtain rfl | rfl : k = u ∨ k = v := by omega
    · simp [Components.list]
    · simp [Components.list]
  have near := chroma 1 (.inl rfl)
  have far := chroma 2 (.inr rfl)
  subst hplanes hplanes'
  have same_luma : luma = luma' := Component.bytes_eq_of_read full (stride size)
    (luma_size.1.trans (rows size)) (luma_size.2.trans (rows size))
  have same_first : first = first' := Component.bytes_eq_of_read near (stride size.halved)
    (first_size.1.trans (rows size.halved)) (first_size.2.trans (rows size.halved))
  have same_second : second = second' := Component.bytes_eq_of_read far (stride size.halved)
    (second_size.1.trans (rows size.halved)) (second_size.2.trans (rows size.halved))
  rw [same_luma, same_first, same_second]

end Planes

/-- Two canonical frames without spare bytes that show pictures that agree are the same bytes. -/
theorem bytes_eq_of_agree {m : Metadata} {p q : Picture} (hf : ofBuffer bytes m = .ok f)
    (hg : ofBuffer bytes' m = .ok g) (exact_size : bytes.size = byteSize m.size m.format)
    (exact_size' : bytes'.size = byteSize m.size m.format) (hp : f.picture = .ok p)
    (hq : g.picture = .ok q) (agree : p.Agree q) : bytes = bytes' := by
  have memory := memory_ofBuffer hf
  have memory' := memory_ofBuffer hg
  have reads := read_of_agree hf hg hp hq agree
  obtain ⟨nonempty, -, ⟨layout, hlayout, hcut⟩, -, -⟩ := ofBuffer_eq_ok.1 hf
  obtain ⟨-, -, ⟨layout', hlayout', hcut'⟩, -, -⟩ := ofBuffer_eq_ok.1 hg
  cases channels : m.format.channels with
  | some n =>
    rw [byteSize_packed channels] at exact_size exact_size'
    exact bytes_eq_of_packed reads channels
      (planes_of_packed channels (bind_eq_ok.2 ⟨layout, hlayout, hcut⟩))
      (planes_of_packed channels (bind_eq_ok.2 ⟨layout', hlayout', hcut'⟩)) exact_size exact_size'
  | none =>
    have yuv := (Format.channels_eq_none_iff (known_of_ofBuffer hf)).1 channels
    rw [planeLayout_yuv nonempty yuv] at hlayout hlayout'
    obtain rfl := Except.ok.inj hlayout
    obtain rfl := Except.ok.inj hlayout'
    rw [byteSize_yuv yuv] at exact_size exact_size'
    suffices planes : f.planes = g.planes by
      rw [← memory, ← memory', Frame.memory, Frame.memory, buffers, buffers, planes]
    by_cases semi : m.format.isSemiPlanar = true
    · refine planes_eq_of_semiPlanar reads channels (planes_of_semiPlanar semi hcut).2
        (planes_of_semiPlanar semi hcut').2 ?_ ?_
      all_goals
        rw [Array.size_extract, Array.size_extract]
        omega
    · have rows : (m.size.width + 1) / 2 * m.size.halved.height =
          m.size.halved.width * m.size.halved.height := rfl
      refine planes_eq_of_planar reads channels (planes_of_planar semi hcut).2
        (planes_of_planar semi hcut').2 ?_ ?_ ?_
      all_goals
        rw [Array.size_extract, Array.size_extract]
        omega

end Frame

end Raster
