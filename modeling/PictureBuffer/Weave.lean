import PictureBuffer.Frame

/-!
# Weaving two fields into a frame

The top field fills the even lines of a frame twice as tall, the bottom field the odd ones. The
planes of the fields and of the woven frame may be padded differently, so a plane is copied line
by line: `weavePlan` lists the lines that lie inside both, and `LineCopy.apply` copies one.

Padding and lines that no field covers keep what they held before.

Model of the part of `weave` that copies the fields once there is a frame to weave into.
-/

namespace PictureBuffer

/-- A run of `len` bytes at offset `src` of one plane, to be put at offset `dst` of another. -/
structure LineCopy where
  src : Nat
  dst : Nat
  len : Nat
  deriving DecidableEq, Repr

/-- Copies the run of bytes from `source` into `target`. -/
def LineCopy.apply (line : LineCopy) (source target : ByteArray) : ByteArray :=
  source.copySlice line.src target line.dst line.len

/-- The lines of a field plane of `size` bytes, and where they go in a woven plane: line `row` to
line `2 * row + parity`, as long as the woven plane has that line. -/
def weavePlan (field woven : PlaneGeometry) (size parity : Nat) : List LineCopy :=
  if field.pitch = 0 then []
  else
    ((List.range (size / field.pitch)).takeWhile fun row => 2 * row + parity < woven.rows).map
      fun row =>
        { src := row * field.pitch
          dst := (2 * row + parity) * woven.pitch
          len := min field.pitch woven.pitch }

/-- A woven plane with the lines of one field filled in. -/
def weavePlane (field woven : PlaneGeometry) (parity : Nat) (source target : ByteArray) :
    ByteArray :=
  (weavePlan field woven source.size parity).foldl (fun target line => line.apply source target)
    target

namespace Frame

/-- The layout of the frame woven from `field` and its partner. Its height is a word of 32 bits. -/
def wovenLayout (field : Frame) : Layout :=
  .unpadded field.layout.format field.layout.width (wrap 32 (field.layout.height * 2))

/-- The lines of the given parity of `frame` filled from `field`, in every plane that both
have. -/
def weaveField (frame field : Frame) (parity : Nat) : Frame :=
  { frame with
    planes := frame.planes.mapIdx fun p target =>
      match field.planes[p]?, frame.layout.planes[p]?, field.layout.planes[p]? with
      | some source, some woven, some geometry => weavePlane geometry woven parity source target
      | _, _, _ => target }

/-- Both fields woven into `frame`, which is then produced. Its side data is that of the bottom
field. -/
def weave (frame top bottom : Frame) : Frame :=
  { (frame.weaveField top 0).weaveField bottom 1 with sideData := bottom.sideData }.produce

end Frame

end PictureBuffer
