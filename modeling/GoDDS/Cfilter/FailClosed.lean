import GoDDS.Cfilter.Parser

/-!
# Content filters: failing closed

The package documentation lets a comparison that cannot be made (a field is absent, or the types do
not fit) make the whole predicate false, unless an `OR` saves it. The code makes the comparison
false, and a `NOT` above it true. The payload `null` is an object without fields.
-/

namespace GoDDS.Cfilter

open Go Fuel

variable {N : Type}

def Pred.orFree : Pred N → Bool
  | .comparison _ _ _ => true
  | .not inner => inner.orFree
  | .and l r => l.orFree && r.orFree
  | .or _ _ => false

/-- Predicates without `OR` that differ in their comparisons only. -/
inductive SameShape : Pred N → Pred N → Prop
  | comparison {l r l' r' : Operand N} {op op' : Op} :
      SameShape (.comparison l op r) (.comparison l' op' r')
  | not {p q : Pred N} (h : SameShape p q) : SameShape (.not p) (.not q)
  | and {l r l' r' : Pred N} (hl : SameShape l l') (hr : SameShape r r') :
      SameShape (.and l r) (.and l' r')

/-- By its shape alone the predicate is `v` if one of its comparisons cannot be made: the comparison
is false then, `NOT` turns the value over, and `AND` is false with either side. -/
def Pred.settles (v : Bool) : Pred N → Bool
  | .comparison _ _ _ => !v
  | .not inner => inner.settles (!v)
  | .and l r => !v && l.settles false && r.settles false
  | .or _ _ => false

section Eval

variable (parseFloat : Str → Option N) (decode : Str → Document N)

variable {parseFloat decode} {f : Fields N} {p q : Pred N}

open Cfilter.Pred

theorem SameShape.orFree (h : SameShape p q) : p.orFree = true := by
  induction h with
  | comparison => rfl
  | not _ ih => exact ih
  | and _ _ ihl ihr => exact Bool.and_eq_true_iff.2 ⟨ihl, ihr⟩

variable [LinearOrder N]

variable (parseFloat f)

variable [Inhabited N]

end Eval

end GoDDS.Cfilter
