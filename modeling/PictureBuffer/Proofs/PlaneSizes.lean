import PictureBuffer.Store
import PictureBuffer.Weave

/-!
# Planes are as large as their layout says

A frame is **sized** if each of its planes has the bytes of its geometry, `pitch * rows`. Frames are
allocated so, and whatever is done to one keeps it so, since samples are computed, filled and copied
in place.

For weaving this is the whole matter of memory safety. A line lies in a plane if its row does, and
`weavePlan` stops at the last row of the layout. So if the layout tells the truth about the plane,
no line of the plan reaches beyond it, whatever the two geometries are (`Sized.admits`): the pitches
may differ or be zero, and one of the frames may have fewer planes.
-/

namespace PictureBuffer

/-! ## The lines of a plan -/

/-- The run of bytes lies inside a source and a target of these sizes. -/
structure LineCopy.Fits (line : LineCopy) (source target : Nat) : Prop where
  src : line.src + line.len ≤ source
  dst : line.dst + line.len ≤ target

/-- A copy inside of the target does not change its size. -/
theorem LineCopy.size_apply {line : LineCopy} {source target : ByteArray}
    (h : line.Fits source.size target.size) : (line.apply source target).size = target.size := by
  obtain ⟨hs, ht⟩ := h
  simp only [← ByteArray.size_data] at hs ht ⊢
  simp only [apply, ByteArray.copySlice, Array.size_append, Array.size_extract]
  omega

/-- The rows of a plan are those for which there is room. -/
theorem mem_takeWhile_range' {p : Nat → Bool} (hp : ∀ row, p (row + 1) = true → p row = true)
    (row n : Nat) : ∀ first,
      row ∈ (List.range' first n).takeWhile p ↔ first ≤ row ∧ row < first + n ∧ p row = true := by
  have antitone : ∀ {a b}, a ≤ b → p b = true → p a = true := by
    intro a b hle
    induction hle with
    | refl => exact id
    | step _ ih => exact fun h => ih (hp _ h)
  induction n with
  | zero =>
    intro first
    constructor
    · intro h
      cases h
    · rintro ⟨hle, hlt, -⟩
      omega
  | succ n ih =>
    intro first
    rw [List.range'_succ, List.takeWhile_cons]
    by_cases hfirst : p first = true
    · rw [if_pos hfirst, List.mem_cons, ih]
      constructor
      · rintro (rfl | ⟨hle, hlt, h⟩)
        · exact ⟨Nat.le_refl _, by omega, hfirst⟩
        · exact ⟨by omega, by omega, h⟩
      · rintro ⟨hle, hlt, h⟩
        rcases Nat.eq_or_lt_of_le hle with rfl | hgt
        · exact Or.inl rfl
        · exact Or.inr ⟨hgt, by omega, h⟩
    · rw [if_neg hfirst]
      constructor
      · intro h
        cases h
      · rintro ⟨hle, -, h⟩
        exact absurd (antitone hle h) hfirst

section Plan

variable {field woven : PlaneGeometry} {size parity : Nat} {line : LineCopy}

/-- **The lines of a plan** are those of the field that have a place in the woven plane. -/
theorem mem_weavePlan_iff : line ∈ weavePlan field woven size parity ↔
    0 < field.pitch ∧ ∃ row, row < size / field.pitch ∧ 2 * row + parity < woven.rows ∧
      line = { src := row * field.pitch
               dst := (2 * row + parity) * woven.pitch
               len := min field.pitch woven.pitch } := by
  unfold weavePlan
  by_cases hpitch : field.pitch = 0
  · rw [if_pos hpitch]
    constructor
    · intro h
      cases h
    · rintro ⟨hpos, -⟩
      omega
  · rw [if_neg hpitch]
    simp only [List.range_eq_range', List.mem_map]
    constructor
    · rintro ⟨row, hrow, rfl⟩
      obtain ⟨-, hlt, hfit⟩ := (mem_takeWhile_range' (by simp; omega) row _ 0).mp hrow
      exact ⟨by omega, row, by omega, of_decide_eq_true hfit, rfl⟩
    · rintro ⟨-, row, hlt, hfit, rfl⟩
      refine ⟨row, (mem_takeWhile_range' (by simp; omega) row _ 0).mpr ?_, rfl⟩
      exact ⟨Nat.zero_le row, by omega, decide_eq_true hfit⟩

/-- A row ends where the next one begins. -/
theorem row_end_le {pitch row rows len : Nat} (hrow : row < rows) (hlen : len ≤ pitch) :
    row * pitch + len ≤ rows * pitch := by
  have hnext : (row + 1) * pitch ≤ rows * pitch := Nat.mul_le_mul_right pitch hrow
  rw [Nat.succ_mul] at hnext
  omega

/-- **No line of a plan reaches beyond the planes**, whatever their pitches. -/
theorem fits_of_mem_weavePlan (h : line ∈ weavePlan field woven size parity) :
    line.Fits size woven.size := by
  obtain ⟨-, row, hrow, hplace, rfl⟩ := mem_weavePlan_iff.mp h
  refine ⟨?_, ?_⟩
  · have hsize : size / field.pitch * field.pitch ≤ size := Nat.div_mul_le_self _ _
    exact Nat.le_trans (row_end_le hrow (Nat.min_le_left _ _)) hsize
  · rw [PlaneGeometry.size, Nat.mul_comm woven.pitch]
    exact row_end_le hplace (Nat.min_le_right _ _)

end Plan

/-- Copies inside of the target do not change its size. -/
theorem size_applyAll {source : ByteArray} {lines : List LineCopy} : ∀ {target : ByteArray},
    (∀ line ∈ lines, line.Fits source.size target.size) →
      (lines.foldl (fun target line => line.apply source target) target).size = target.size := by
  induction lines with
  | nil => exact fun _ => rfl
  | cons first lines ih =>
    intro target h
    have hfirst := first.size_apply (h first List.mem_cons_self)
    rw [List.foldl_cons, ih, hfirst]
    intro line hline
    rw [hfirst]
    exact h line (List.mem_cons_of_mem _ hline)

theorem size_weavePlane {field woven : PlaneGeometry} {parity : Nat} {source target : ByteArray}
    (h : target.size = woven.size) :
    (weavePlane field woven parity source target).size = target.size :=
  size_applyAll fun _ hline => h ▸ fits_of_mem_weavePlan hline

/-! ## Frames -/

namespace Frame

variable {frame : Frame} {p : Nat}

/-- **Every plane is as large as its geometry.** -/
def Sized (frame : Frame) : Prop := frame.planes.map (·.size) = frame.layout.planes.map (·.size)

instance (frame : Frame) : Decidable frame.Sized := inferInstanceAs (Decidable (_ = _))

theorem Sized.size {plane : ByteArray} {geometry : PlaneGeometry} (h : frame.Sized)
    (hp : frame.planes[p]? = some plane) (hg : frame.layout.planes[p]? = some geometry) :
    plane.size = geometry.size := by
  have hsizes := congrArg (·[p]?) h
  simp only [List.getElem?_map, hp, hg, Option.map_some, Option.some.injEq] at hsizes
  exact hsizes

/-- A sized frame has the planes of its layout. -/
theorem Sized.has_plane {geometry : PlaneGeometry} (h : frame.Sized)
    (hg : frame.layout.planes[p]? = some geometry) :
    ∃ plane, frame.planes[p]? = some plane ∧ plane.size = geometry.size := by
  have hsizes := congrArg (·[p]?) h
  simp only [List.getElem?_map, hg, Option.map_some, Option.map_eq_some_iff] at hsizes
  exact hsizes

/-- What is done to the planes in place keeps a frame sized. -/
theorem Sized.mapIdx {f : Nat → ByteArray → ByteArray} (h : frame.Sized)
    (hf : ∀ p plane, frame.planes[p]? = some plane → (f p plane).size = plane.size) :
    ({ frame with planes := frame.planes.mapIdx f } : Frame).Sized := by
  refine Eq.trans (List.ext_getElem? fun p => ?_) h
  rw [List.getElem?_map, List.getElem?_mapIdx, List.getElem?_map]
  cases hp : frame.planes[p]? with
  | none => rfl
  | some plane => exact congrArg some (hf p plane hp)

theorem size_flatPlane (size : Nat) (value : UInt8) : (flatPlane size value).size = size := by
  simp [flatPlane, ByteArray.size]

theorem sized_empty : empty.Sized := rfl

/-- A new frame is sized. -/
theorem sized_blank (layout : Layout) : (blank layout).Sized := by
  simp [Sized, blank, size_flatPlane]

theorem Sized.produce (h : frame.Sized) : frame.produce.Sized := h

theorem Sized.cancel (h : frame.Sized) : frame.cancel.Sized := h

theorem Sized.addSideData (h : frame.Sized) (data : SideData) : (frame.addSideData data).Sized := h

theorem Sized.render (h : frame.Sized) (sample : Nat → Nat → Nat → UInt8) :
    (frame.render sample).Sized :=
  h.mapIdx fun _ _ _ => Array.size_mapIdx

theorem Sized.fillNeutral (h : frame.Sized) (bitDepth : Nat) :
    (frame.fillNeutral bitDepth).Sized := by
  have hfill : ∀ plane : ByteArray,
      ((if frame.layout.format.isHighBitDepth then fillWords else fillBytes) (neutral bitDepth)
        plane).size = plane.size := by
    intro plane
    split
    · exact Array.size_mapIdx
    · exact size_flatPlane _ _
  refine Eq.trans ?_ h
  rw [Frame.fillNeutral, List.map_map]
  exact List.map_congr_left fun plane _ => hfill plane

/-- The planes of a frame keep their sizes when a field is woven into it. -/
theorem Sized.weaveField (h : frame.Sized) (field : Frame) (parity : Nat) :
    (frame.weaveField field parity).Sized := by
  refine h.mapIdx fun p target ht => ?_
  split
  · rename_i hwoven _
    exact size_weavePlane (h.size ht hwoven)
  · rfl

theorem Sized.weave (h : frame.Sized) (top bottom : Frame) : (frame.weave top bottom).Sized :=
  (h.weaveField top 0).weaveField bottom 1

/-- Every line that is copied from `field` lies inside the plane it is taken from, and inside the
plane of `frame` it is put into. -/
def Admits (frame field : Frame) (parity : Nat) : Prop :=
  ∀ (p : Nat) (source target : ByteArray) (geometry woven : PlaneGeometry),
    field.planes[p]? = some source → frame.planes[p]? = some target →
    field.layout.planes[p]? = some geometry → frame.layout.planes[p]? = some woven →
      ∀ line ∈ weavePlan geometry woven source.size parity, line.Fits source.size target.size

/-- **Into a sized frame any field can be woven**: no line reaches beyond a plane. -/
theorem Sized.admits (h : frame.Sized) (field : Frame) (parity : Nat) :
    frame.Admits field parity := by
  intro p source target geometry woven _ ht _ hwoven line hline
  rw [h.size ht hwoven]
  exact fits_of_mem_weavePlan hline

end Frame

end PictureBuffer
