import Mathlib.Data.List.Basic

/-!
# Files read and written at an offset

The content of a file is a list.
-/

namespace File

open List

variable {α : Type*}

/-- A write replaces what is at its offset and fills the gap if the file ends before it; writing
nothing leaves the file as it is. -/
def writeAt (zero : α) (file : List α) (offset : Nat) (values : List α) : List α :=
  if values.isEmpty then file
  else
    file.take offset ++ List.replicate (offset - file.length) zero ++ values ++
      file.drop (offset + values.length)

/-- A read takes as much as there is. -/
def readAt (file : List α) (offset n : Nat) : List α := (file.drop offset).take n

theorem writeAt_length (zero : α) (file values : List α) :
    writeAt zero file file.length values = file ++ values := by
  unfold writeAt
  by_cases h : values.isEmpty
  · rw [if_pos h, List.isEmpty_iff.1 h, append_nil]
  · rw [if_neg h, take_length, Nat.sub_self, drop_eq_nil_of_le (Nat.le_add_right _ _)]
    simp

theorem readAt_left (front rest : List α) : readAt (front ++ rest) 0 front.length = front :=
  take_left

theorem readAt_right (front rest : List α) :
    readAt (front ++ rest) front.length rest.length = rest := by
  unfold readAt
  rw [drop_left, take_length]

end File
