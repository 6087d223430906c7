import PictureBuffer.Fault
import PictureBuffer.Store

/-!
# The output queue

Pictures that leave the decoder wait in a queue of bounded length until the client takes them.
A picture that finds the queue full is lost.

Model of `OutputQueue` (`Queue`) and `DecodedPicture` (`Picture`).
-/

namespace PictureBuffer

/-- A picture that leaves the decoder. It owns a handle to its frame. -/
structure Picture where
  frame : FrameId
  poc : Int
  layer : Nat
  picStruct : PicStruct
  props : Props
  /-- Decoding time stamp of the packet that was processed when the picture left. -/
  dts : Option Int
  deriving DecidableEq, Inhabited

structure Queue where
  capacity : Nat
  pictures : List Picture := []
  deriving DecidableEq, Inhabited

namespace Queue

def length (queue : Queue) : Nat := queue.pictures.length

def isEmpty (queue : Queue) : Bool := queue.pictures.isEmpty

/-- Adds `picture` at the back, unless the queue is full. -/
def push (queue : Queue) (picture : Picture) : Except Fault Queue :=
  if queue.length < queue.capacity then
    .ok { queue with pictures := queue.pictures ++ [picture] }
  else .error .outputQueueFull

/-- The picture at the front and the queue without it. -/
def pop? (queue : Queue) : Option (Picture × Queue) :=
  match queue.pictures with
  | [] => none
  | picture :: rest => some (picture, { queue with pictures := rest })

/-- All pictures, front first, and the empty queue. -/
def drain (queue : Queue) : List Picture × Queue :=
  (queue.pictures, { queue with pictures := [] })

end Queue

end PictureBuffer
