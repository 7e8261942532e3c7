import GoDDS.Tools.CdrStream

/-!
# Reads that fail

The cursor stays where the failing check found it.
-/

namespace GoDDS.Tools.Cdr.Decoder

open ByteCodec Go

/-- Bytes are taken up to the new position only, or none are. -/
def InBounds (k : Kind) (d : Decoder) : Prop :=
  (Decoder.read k d).2.pos ≤ d.buf.length ∨
    word k.width d = none ∧ (Decoder.read k d).2 = d.align k.width

/-- What a read whose first integer has `w` bytes does to the cursor: the integer or the payload is
missing, or the read succeeds. -/
inductive Moved {α : Type} (w : Nat) (d : Decoder) : Except Error α × Decoder → Prop
  | short {e : Error} (hword : word w d = none) : Moved w d (.error e, d.align w)
  | cut {e : Error} (hword : word w d ≠ none) (hle : (d.align w).pos + w ≤ d.buf.length) :
      Moved w d (.error e, ⟨d.buf, (d.align w).pos + w⟩)
  | whole {x : α} {p : Nat} (hle : p ≤ d.buf.length) : Moved w d (.ok x, ⟨d.buf, p⟩)

variable {α β : Type} {w : Nat} {d : Decoder}

theorem Moved.map {r : Reader α} (h : Moved w d (r d)) (f : α → β) : Moved w d (map f r d) := by
  unfold Decoder.map
  generalize r d = out at h
  cases h with
  | short hword => exact .short hword
  | cut hword hle => exact .cut hword hle
  | whole hle => exact .whole hle

end GoDDS.Tools.Cdr.Decoder
