import PictureBuffer.Frame

/-!
# The frame store

Frames are shared: the slots of several decoders, the output process, the output queue and the
client may all hold the same one. The store keeps every frame that somebody holds, under an
identifier that is never used twice, together with the number of **handles** to it. Whoever
keeps an identifier owns one handle: `retain` adds one, `release` gives one back, and the last
`release` frees the frame.

Frames come from a `Provider`. Most come from its pool, whose budget bounds the number of
**outstanding** frames, those acquired and not yet freed.

`cell?` is the view of a store; a freed or unknown identifier has no cell.

Model of the handles to a `Frame`, of `FrameBufferProvider` (`Provider`) and of `FramePool`, the
provider that has nothing but a `budget`. Any other one may as well refuse a request, or answer it
with a frame of its own, as it decides by the number of the request.
-/

namespace PictureBuffer

/-- Names a frame of a store. -/
abbrev FrameId := Nat

/-- What a provider does when it is asked for a frame. -/
inductive Supply
  /-- Takes one from the pool, within its budget. -/
  | pooled
  /-- Hands out a frame of its own with these planes, outside the pool. -/
  | own (planes : List PlaneGeometry)
  | refused
  deriving DecidableEq, Repr

/-- A source of frames. Requests of each kind are numbered from zero, failed ones included. -/
structure Provider where
  /-- Frames of the pool that may be outstanding at a time; no bound if absent. -/
  budget : Option Nat := none
  /-- What happens at each request for a frame. -/
  supply : Nat → Supply := fun _ => .pooled
  /-- Whether side data can be attached, by request. -/
  attaches : Nat → Bool := fun _ => true

instance : Inhabited Provider := ⟨{}⟩

/-- A frame that somebody holds. -/
structure Cell where
  frame : Frame
  /-- The frame counts against the budget of the pool. -/
  pooled : Bool
  handles : Nat

/-- The frames in use and the state of their provider. -/
structure Store where
  provider : Provider := {}
  /-- By identifier; a freed frame leaves its place empty. -/
  cells : Array (Option Cell) := #[]
  outstanding : Nat := 0
  /-- Requests for frames so far. -/
  acquisitions : Nat := 0
  /-- Requests to attach side data so far. -/
  attachments : Nat := 0
  deriving Inhabited

namespace Store

/-! ## Reading -/

def cell? (store : Store) (id : FrameId) : Option Cell := store.cells[id]?.join

def frame? (store : Store) (id : FrameId) : Option Frame := (store.cell? id).map (·.frame)

/-- The frame under an identifier; the empty frame if there is none. -/
def frame (store : Store) (id : FrameId) : Frame := (store.frame? id).getD .empty

/-- Handles to a frame, none to one that is freed or unknown. -/
def handles (store : Store) (id : FrameId) : Nat := (store.cell? id).elim 0 (·.handles)

/-- Exactly one handle to the frame exists. -/
def isUnique (store : Store) (id : FrameId) : Bool := store.handles id == 1

/-! ## Handles -/

/-- A new frame with one handle. -/
def insert (store : Store) (frame : Frame) (pooled : Bool) : FrameId × Store :=
  (store.cells.size,
    { store with
      cells := store.cells.push (some ⟨frame, pooled, 1⟩)
      outstanding := store.outstanding + pooled.toNat })

/-- One more handle to a frame in use. -/
def retain (store : Store) (id : FrameId) : Store :=
  { store with
    cells := store.cells.modify id (·.map fun cell => { cell with handles := cell.handles + 1 }) }

/-- One handle less. The last one frees the frame, and gives its place in the pool back. -/
def release (store : Store) (id : FrameId) : Store :=
  match store.cell? id with
  | none => store
  | some cell =>
    if cell.handles ≤ 1 then
      { store with
        cells := store.cells.setIfInBounds id none
        outstanding := store.outstanding - cell.pooled.toNat }
    else
      { store with
        cells := store.cells.setIfInBounds id (some { cell with handles := cell.handles - 1 }) }

def retainAll (store : Store) (ids : List FrameId) : Store := ids.foldl retain store

def releaseAll (store : Store) (ids : List FrameId) : Store := ids.foldl release store

/-- The frame changed in place, for all who hold it. -/
def update (store : Store) (id : FrameId) (f : Frame → Frame) : Store :=
  { store with
    cells := store.cells.modify id (·.map fun cell => { cell with frame := f cell.frame }) }

/-! ## Requests to the provider -/

/-- A new frame of the given format and size, or nothing if the provider has none to give. The
caller owns its only handle. -/
def acquire (store : Store) (format : Format) (width height : Nat) : Option FrameId × Store :=
  let asked := { store with acquisitions := store.acquisitions + 1 }
  match store.provider.supply store.acquisitions with
  | .refused => (none, asked)
  | .own planes =>
    let (id, given) := asked.insert (.blank ⟨format, width, height, planes⟩) false
    (some id, given)
  | .pooled =>
    if store.provider.budget.all (store.outstanding < ·) then
      let (id, given) := asked.insert (.blank (.unpadded format width height)) true
      (some id, given)
    else (none, asked)

/-- Side data attached to a frame, and whether the provider could. -/
def attach (store : Store) (id : FrameId) (data : SideData) : Bool × Store :=
  let asked := { store with attachments := store.attachments + 1 }
  if store.provider.attaches store.attachments then (true, asked.update id (·.addSideData data))
  else (false, asked)

/-- Side data attached in order, up to the first that fails. -/
def attachAll (store : Store) (id : FrameId) : List SideData → Bool × Store
  | [] => (true, store)
  | data :: rest =>
    match store.attach id data with
    | (true, store) => store.attachAll id rest
    | (false, store) => (false, store)

end Store

end PictureBuffer
