import PictureBuffer.Proofs.PlaneSizes
import PictureBuffer.Proofs.Ranges

/-!
# What stands in a woven frame

`Frame.byte?` looks a byte up by its plane, its row and its column. A byte of a frame that a field
was woven into is that of the field, half as far down, if the row has the parity of the field and
the field reaches so far, and otherwise it is what it was before (`byte?_weaveField`).

This is exact for any two geometries. What is copied is therefore decided by the sizes alone, and a
field that is as large as the smallest layout for its picture (`Layout.Covers`) reaches every byte
of the picture twice as tall (`Frame.weave_covered`). The rows do not simply double: where a field
has an odd number of luma rows and chroma is subsampled, the two fields together have one chroma row
more than the frame.
-/

namespace PictureBuffer

/-! ## Copies -/

namespace LineCopy

variable {line : LineCopy} {source : ByteArray} {i : Nat}

/-- The copy writes byte `i` of the target. -/
def Writes (line : LineCopy) (i : Nat) : Prop := line.dst ≤ i ∧ i < line.dst + line.len

instance (line : LineCopy) (i : Nat) : Decidable (line.Writes i) :=
  inferInstanceAs (Decidable (_ ∧ _))

/-- A copy changes the bytes that it writes, and no others. -/
theorem getElem?_apply {target : ByteArray} (h : line.Fits source.size target.size) (i : Nat) :
    (line.apply source target).data[i]? =
      if line.Writes i then source.data[line.src + (i - line.dst)]? else target.data[i]? := by
  obtain ⟨hs, ht⟩ := h
  simp only [← ByteArray.size_data] at hs ht
  have hlen : min line.len (source.data.size - line.src) = line.len := by omega
  have hbefore : (target.data.extract 0 line.dst).size = line.dst := by
    rw [Array.size_extract]
    omega
  have hcopied : (source.data.extract line.src (line.src + line.len)).size = line.len := by
    rw [Array.size_extract]
    omega
  simp only [apply, ByteArray.copySlice, hlen]
  rw [Array.getElem?_append, Array.size_append, hbefore, hcopied, Array.getElem?_append, hbefore]
  by_cases hstart : i < line.dst
  · rw [if_pos (by omega), if_pos hstart, if_neg fun hw => Nat.not_le.mpr hstart hw.1,
      Array.getElem?_extract, if_pos (by omega), Nat.zero_add]
  · by_cases hend : i < line.dst + line.len
    · rw [if_pos hend, if_neg hstart, if_pos ⟨by omega, hend⟩, Array.getElem?_extract,
        if_pos (by omega)]
    · rw [if_neg hend, if_neg fun hw => hend hw.2, Array.getElem?_extract,
        show line.dst + line.len + (i - (line.dst + line.len)) = i by omega]
      split
      · rfl
      · rw [Array.getElem?_eq_none (by omega)]

/-- **Copies in sequence**: a byte is what one of them wrote, or what it was if none wrote it. -/
theorem getElem?_applyAll {lines : List LineCopy} : ∀ {target : ByteArray},
    (∀ line ∈ lines, line.Fits source.size target.size) → ∀ i,
      (∃ line ∈ lines, line.Writes i ∧
        (lines.foldl (fun target line => line.apply source target) target).data[i]? =
          source.data[line.src + (i - line.dst)]?) ∨
      (∀ line ∈ lines, ¬ line.Writes i) ∧
        (lines.foldl (fun target line => line.apply source target) target).data[i]? =
          target.data[i]? := by
  induction lines with
  | nil =>
    intro target _ i
    exact Or.inr ⟨fun line h => absurd h List.not_mem_nil, rfl⟩
  | cons first lines ih =>
    intro target h i
    have hfirst := h first List.mem_cons_self
    have hrest : ∀ line ∈ lines, line.Fits source.size (first.apply source target).size := by
      intro line hline
      rw [first.size_apply hfirst]
      exact h line (List.mem_cons_of_mem _ hline)
    have happly := first.getElem?_apply hfirst i
    rw [List.foldl_cons]
    rcases ih hrest i with ⟨line, hline, hw, he⟩ | ⟨hnone, he⟩
    · exact Or.inl ⟨line, List.mem_cons_of_mem _ hline, hw, he⟩
    · by_cases hw : first.Writes i
      · exact Or.inl ⟨first, List.mem_cons_self, hw, by rw [he, happly, if_pos hw]⟩
      · exact Or.inr ⟨List.forall_mem_cons.mpr ⟨hw, hnone⟩, by rw [he, happly, if_neg hw]⟩

end LineCopy

/-! ## One plane -/

/-- Row and column of a byte can be told from its offset. -/
theorem row_eq_of_offset {row row' pitch column len : Nat} (hcolumn : column < pitch)
    (hlen : len ≤ pitch) (hle : row' * pitch ≤ row * pitch + column)
    (hlt : row * pitch + column < row' * pitch + len) : row' = row := by
  rcases Nat.lt_trichotomy row' row with hless | heq | hmore
  · have hend := row_end_le hless hlen
    omega
  · exact heq
  · have hend := row_end_le hmore (Nat.succ_le_of_lt hcolumn)
    omega

/-- **A byte of a woven plane** is that of the field, if its row has the parity of the field and the
field reaches so far, or else what it was before. -/
theorem getElem?_weavePlane {field woven : PlaneGeometry} {parity : Nat}
    {source target : ByteArray} (hparity : parity < 2) (hsource : source.size = field.size)
    (htarget : target.size = woven.size) {row column : Nat} (hrow : row < woven.rows)
    (hcolumn : column < woven.pitch) :
    (weavePlane field woven parity source target).data[row * woven.pitch + column]? =
      if row % 2 = parity ∧ row / 2 < field.rows ∧ column < field.pitch then
        source.data[row / 2 * field.pitch + column]?
      else target.data[row * woven.pitch + column]? := by
  have hfits : ∀ line ∈ weavePlan field woven source.size parity,
      line.Fits source.size target.size := fun _ hline => htarget ▸ fits_of_mem_weavePlan hline
  have hrows : 0 < field.pitch → source.size / field.pitch = field.rows := fun hpitch => by
    rw [hsource, PlaneGeometry.size, Nat.mul_div_cancel_left _ hpitch]
  -- The only line that can write the byte is that of the row.
  have hlines : ∀ line ∈ weavePlan field woven source.size parity,
      line.Writes (row * woven.pitch + column) →
        (row % 2 = parity ∧ row / 2 < field.rows ∧ column < field.pitch) ∧
          line.src + (row * woven.pitch + column - line.dst) = row / 2 * field.pitch + column := by
    rintro line hline ⟨hle, hlt⟩
    obtain ⟨hpitch, half, hhalf, -, rfl⟩ := mem_weavePlan_iff.mp hline
    dsimp only at hle hlt ⊢
    obtain rfl : 2 * half + parity = row :=
      row_eq_of_offset hcolumn (Nat.min_le_right _ _) hle hlt
    have hdiv : (2 * half + parity) / 2 = half := by omega
    rw [hrows hpitch] at hhalf
    rw [hdiv, Nat.add_sub_cancel_left]
    exact ⟨⟨by omega, hhalf, by omega⟩, rfl⟩
  unfold weavePlane
  rcases LineCopy.getElem?_applyAll hfits (row * woven.pitch + column) with
    ⟨line, hline, hw, he⟩ | ⟨hnone, he⟩
  · obtain ⟨hreached, hsrc⟩ := hlines line hline hw
    rw [he, if_pos hreached, hsrc]
  · rw [he, if_neg]
    rintro ⟨hpar, hhalf, hreached⟩
    have hpitch : 0 < field.pitch := Nat.zero_lt_of_lt hreached
    have hline : 2 * (row / 2) + parity = row := by omega
    refine hnone _ (mem_weavePlan_iff.mpr ⟨hpitch, row / 2, ?_, ?_, rfl⟩) ⟨?_, ?_⟩
    · rwa [hrows hpitch]
    · rwa [hline]
    · dsimp only
      rw [hline]
      exact Nat.le_add_right _ _
    · dsimp only
      rw [hline]
      exact Nat.add_lt_add_left (Nat.lt_min.mpr ⟨hreached, hcolumn⟩) _

/-! ## Frames -/

namespace Frame

variable {frame field top bottom : Frame} {p row column : Nat} {old : UInt8}

/-- The byte at a column of a row of a plane, if the plane has it. -/
def byte? (frame : Frame) (p row column : Nat) : Option UInt8 :=
  match frame.layout.planes[p]?, frame.planes[p]? with
  | some geometry, some plane =>
    if row < geometry.rows ∧ column < geometry.pitch then
      plane.data[row * geometry.pitch + column]?
    else none
  | _, _ => none

theorem byte?_eq {geometry : PlaneGeometry} {plane : ByteArray}
    (hg : frame.layout.planes[p]? = some geometry) (hp : frame.planes[p]? = some plane) :
    frame.byte? p row column =
      if row < geometry.rows ∧ column < geometry.pitch then
        plane.data[row * geometry.pitch + column]?
      else none := by
  unfold byte?
  rw [hg, hp]

/-- A byte of a frame stands in a row and a column of one of its planes. -/
theorem byte?_cases {byte : UInt8} (h : frame.byte? p row column = some byte) :
    ∃ geometry plane, frame.layout.planes[p]? = some geometry ∧ frame.planes[p]? = some plane ∧
      row < geometry.rows ∧ column < geometry.pitch ∧
      plane.data[row * geometry.pitch + column]? = some byte := by
  unfold byte? at h
  split at h
  · rename_i geometry plane hg hp
    split at h
    · rename_i hin
      exact ⟨geometry, plane, hg, hp, hin.1, hin.2, h⟩
    · cases h
  · cases h

/-- **A sized frame has the bytes of its layout.** -/
theorem Sized.exists_byte? (h : frame.Sized) {geometry : PlaneGeometry}
    (hg : frame.layout.planes[p]? = some geometry) (hrow : row < geometry.rows)
    (hcolumn : column < geometry.pitch) : ∃ byte, frame.byte? p row column = some byte := by
  obtain ⟨plane, hp, hsize⟩ := h.has_plane hg
  have hend := row_end_le hrow (Nat.succ_le_of_lt hcolumn)
  rw [PlaneGeometry.size, Nat.mul_comm] at hsize
  have hlt : row * geometry.pitch + column < plane.data.size := by
    rw [ByteArray.size_data]
    omega
  exact ⟨_, (byte?_eq hg hp).trans ((if_pos ⟨hrow, hcolumn⟩).trans
    (Array.getElem?_eq_getElem hlt))⟩

/-- A plane that both have is woven. -/
theorem planes_weaveField {geometry woven : PlaneGeometry} {source target : ByteArray}
    (hg : field.layout.planes[p]? = some geometry) (hs : field.planes[p]? = some source)
    (hwoven : frame.layout.planes[p]? = some woven) (ht : frame.planes[p]? = some target)
    (parity : Nat) : (frame.weaveField field parity).planes[p]? =
      some (weavePlane geometry woven parity source target) := by
  simp only [weaveField, List.getElem?_mapIdx, ht, hs, hwoven, hg, Option.map_some]

/-- A plane that the field does not have stays. -/
theorem planes_weaveField_of_none (hg : field.layout.planes[p]? = none) (parity : Nat) :
    (frame.weaveField field parity).planes[p]? = frame.planes[p]? := by
  simp only [weaveField, List.getElem?_mapIdx, hg]
  cases frame.planes[p]? with
  | none => rfl
  | some target => cases field.planes[p]? <;> cases frame.layout.planes[p]? <;> rfl

/-- **A byte after a field was woven in** is that of the field, half as far down, if the row has the
parity of the field and the field reaches so far. -/
theorem byte?_weaveField (h : frame.Sized) (hfield : field.Sized) {parity : Nat}
    (hparity : parity < 2) (hold : frame.byte? p row column = some old) :
    (frame.weaveField field parity).byte? p row column =
      some (if row % 2 = parity then (field.byte? p (row / 2) column).getD old else old) := by
  obtain ⟨woven, target, hwoven, ht, hrow, hcolumn, hbyte⟩ := byte?_cases hold
  have hlayout : (frame.weaveField field parity).layout.planes[p]? = some woven := hwoven
  cases hg : field.layout.planes[p]? with
  | none =>
    have hplane := (planes_weaveField_of_none hg parity).trans ht
    have hmissing : field.byte? p (row / 2) column = none := by
      unfold byte?
      rw [hg]
    rw [byte?_eq hlayout hplane, if_pos ⟨hrow, hcolumn⟩, hbyte, hmissing, Option.getD_none,
      ite_self]
  | some geometry =>
    obtain ⟨source, hs, hsize⟩ := hfield.has_plane hg
    rw [byte?_eq hlayout (planes_weaveField hg hs hwoven ht parity), if_pos ⟨hrow, hcolumn⟩,
      getElem?_weavePlane hparity hsize (h.size ht hwoven) hrow hcolumn, hbyte, byte?_eq hg hs]
    by_cases hreach : row / 2 < geometry.rows ∧ column < geometry.pitch
    · obtain ⟨byte, hb⟩ := hfield.exists_byte? hg hreach.1 hreach.2
      rw [byte?_eq hg hs, if_pos hreach] at hb
      rw [if_pos hreach, hb, Option.getD_some]
      by_cases hpar : row % 2 = parity
      · rw [if_pos ⟨hpar, hreach⟩, if_pos hpar]
      · rw [if_neg (fun h => hpar h.1), if_neg hpar]
    · rw [if_neg hreach, if_neg (fun h => hreach h.2), Option.getD_none, ite_self]

/-- **A byte of a woven frame** is that of the top field in an even row and that of the bottom field
in an odd one, if the field reaches so far. -/
theorem byte?_weave (h : frame.Sized) (htop : top.Sized) (hbottom : bottom.Sized)
    (hold : frame.byte? p row column = some old) :
    (frame.weave top bottom).byte? p row column =
      some (((if row % 2 = 0 then top else bottom).byte? p (row / 2) column).getD old) := by
  have heven := byte?_weaveField h htop Nat.two_pos hold
  have hodd := byte?_weaveField (h.weaveField top 0) hbottom Nat.one_lt_two heven
  refine hodd.trans (congrArg some ?_)
  rcases Nat.mod_two_eq_zero_or_one row with hr | hr
  · simp [hr]
  · simp [hr]

end Frame

/-! ## Sizes that suffice -/

namespace Layout

variable {layout other : Layout} {p : Nat}

/-- The planes of `layout` are **at least as large** as those of `other`, in pitch and in rows. -/
def Covers (layout other : Layout) : Prop :=
  ∀ p < other.planes.length, ∃ small ∈ other.planes[p]?, ∃ large ∈ layout.planes[p]?,
    small.pitch ≤ large.pitch ∧ small.rows ≤ large.rows

instance (layout other : Layout) : Decidable (layout.Covers other) := by
  unfold Covers
  infer_instance

theorem Covers.refl (layout : Layout) : layout.Covers layout := fun p hp =>
  ⟨layout.planes[p], List.getElem?_eq_getElem hp, layout.planes[p], List.getElem?_eq_getElem hp,
    Nat.le_refl _, Nat.le_refl _⟩

theorem Covers.plane {small : PlaneGeometry} (h : layout.Covers other)
    (hp : other.planes[p]? = some small) :
    ∃ large, layout.planes[p]? = some large ∧ small.pitch ≤ large.pitch ∧
      small.rows ≤ large.rows := by
  obtain ⟨hlt, -⟩ := List.getElem?_eq_some_iff.mp hp
  obtain ⟨small', hsmall, large, hlarge, hle⟩ := h p hlt
  obtain rfl : small' = small := Option.some.inj (hsmall.symm.trans hp)
  exact ⟨large, hlarge, hle⟩

/-- Luma rows under one chroma row. -/
theorem verticalSubsampling_cases (format : Format) (p : Nat) :
    format.verticalSubsampling p = 1 ∨ format.verticalSubsampling p = 2 := by
  unfold Format.verticalSubsampling
  split
  · exact Or.inl rfl
  · cases format <;> simp

/-- **A field is half a picture**: its planes have the pitch of those of a picture up to twice as
tall, and a row for every other row of it. -/
theorem half_plane {format : Format} {width height doubled : Nat} {tall : PlaneGeometry}
    (hle : doubled ≤ height * 2)
    (h : (unpadded format width doubled).planes[p]? = some tall) :
    ∃ half, (unpadded format width height).planes[p]? = some half ∧ half.pitch = tall.pitch ∧
      ∀ row < tall.rows, row / 2 < half.rows := by
  unfold unpadded at h ⊢
  rw [List.getElem?_map] at h ⊢
  obtain ⟨q, hq, rfl⟩ := Option.map_eq_some_iff.mp h
  refine ⟨unpaddedPlane format width height q, by rw [hq]; rfl, rfl, fun row hrow => ?_⟩
  simp only [unpaddedPlane, roundUp] at hrow ⊢
  rcases verticalSubsampling_cases format q with hv | hv <;> rw [hv] at hrow ⊢ <;> omega

end Layout

/-- **Two fields as large as their pictures fill a frame as large as the picture twice as tall**:
each byte of that picture is one of the top field's in an even row, and one of the bottom field's in
an odd row. -/
theorem Frame.weave_covered {frame top bottom : Frame} (h : frame.Sized) (htop : top.Sized)
    (hbottom : bottom.Sized) (hlayout : top.layout = bottom.layout)
    (hfields : top.layout.Covers (.unpadded top.layout.format top.layout.width top.layout.height))
    (hframe : frame.layout.Covers top.wovenLayout) {p row column : Nat} {geometry : PlaneGeometry}
    (hp : top.wovenLayout.planes[p]? = some geometry) (hrow : row < geometry.rows)
    (hcolumn : column < geometry.pitch) :
    ∃ byte, (frame.weave top bottom).byte? p row column = some byte ∧
      (if row % 2 = 0 then top else bottom).byte? p (row / 2) column = some byte := by
  obtain ⟨half, hhalf, hpitch, hrows⟩ := Layout.half_plane (wrap_le 32 _) hp
  obtain ⟨large, hlarge, hlargePitch, hlargeRows⟩ := hframe.plane hp
  obtain ⟨plane, hplane, hplanePitch, hplaneRows⟩ := hfields.plane hhalf
  obtain ⟨old, hold⟩ := h.exists_byte? hlarge (Nat.lt_of_lt_of_le hrow hlargeRows)
    (Nat.lt_of_lt_of_le hcolumn hlargePitch)
  have hreach : ∃ byte, (if row % 2 = 0 then top else bottom).byte? p (row / 2) column =
      some byte := by
    have hhalfRow := Nat.lt_of_lt_of_le (hrows row hrow) hplaneRows
    have hhalfColumn : column < plane.pitch := by omega
    split
    · exact htop.exists_byte? hplane hhalfRow hhalfColumn
    · exact hbottom.exists_byte? (hlayout ▸ hplane) hhalfRow hhalfColumn
  obtain ⟨byte, hbyte⟩ := hreach
  refine ⟨byte, ?_, hbyte⟩
  rw [byte?_weave h htop hbottom hold, hbyte]
  rfl

end PictureBuffer
