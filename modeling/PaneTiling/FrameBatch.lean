/-!
Values that arrive between two animation frames and are dealt with in one go. Only the first of them
asks for a frame.
-/

namespace PaneTiling

structure FrameBatch (β : Type) where
  pending : Option β
  scheduled : Bool
deriving BEq, DecidableEq, Repr, Inhabited

namespace FrameBatch

variable {β : Type}

def empty : FrameBatch β := ⟨none, false⟩

/-- Joins a value to what is pending. A frame is to be requested if none is scheduled yet. -/
def push (batch : FrameBatch β) (join : β → β → β) (value : β) : Bool × FrameBatch β :=
  (!batch.scheduled, ⟨some (batch.pending.elim value (join · value)), true⟩)

/-- Hands over what is pending, once its frame has come. -/
def take (batch : FrameBatch β) : Option β × FrameBatch β := (batch.pending, empty)

@[simp]
theorem pending_push (batch : FrameBatch β) (join : β → β → β) (value : β) :
    (batch.push join value).2.pending = some (batch.pending.elim value (join · value)) := rfl

@[simp]
theorem fst_take (batch : FrameBatch β) : batch.take.1 = batch.pending := rfl

end FrameBatch

end PaneTiling
