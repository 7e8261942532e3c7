import Mathlib.Logic.Basic

/-!
# Runs of a state machine
-/

namespace Run

open List

variable {σ ι ο : Type*}

/-- A step returns the next state and a list of outputs, which a run concatenates. -/
def run (step : σ → ι → σ × List ο) : σ → List ι → σ × List ο
  | s, [] => (s, [])
  | s, i :: is => ((run step (step s i).1 is).1, (step s i).2 ++ (run step (step s i).1 is).2)

/-- Every step of the run from `s` meets `C`; `past` are the inputs read before. -/
def Along (C : List ι → σ → ι → Prop) (step : σ → ι → σ × List ο) :
    (past : List ι) → σ → List ι → Prop
  | _, _, [] => True
  | past, s, i :: is => C past s i ∧ Along C step (past ++ [i]) (step s i).1 is

def states (step : σ → ι → σ × List ο) (s : σ) (inputs : Nat → ι) : Nat → σ
  | 0 => s
  | i + 1 => (step (states step s inputs i) (inputs i)).1

variable {step : σ → ι → σ × List ο} {C : List ι → σ → ι → Prop}

instance decidableAlong [∀ past s i, Decidable (C past s i)] :
    ∀ past s is, Decidable (Along C step past s is)
  | _, _, [] => isTrue trivial
  | past, s, i :: is => @instDecidableAnd _ _ _ (decidableAlong (past ++ [i]) (step s i).1 is)

@[simp] theorem run_nil (s : σ) : run step s [] = (s, []) := rfl

theorem run_cons (s : σ) (i : ι) (is : List ι) : run step s (i :: is) =
      ((run step (step s i).1 is).1, (step s i).2 ++ (run step (step s i).1 is).2) := rfl

theorem run_append (s : σ) (is js : List ι) : run step s (is ++ js) =
      ((run step (run step s is).1 js).1,
        (run step s is).2 ++ (run step (run step s is).1 js).2) := by
  induction is generalizing s with
  | nil => rfl
  | cons i is ih => simp only [cons_append, run_cons, ih, append_assoc]

theorem run_singleton (s : σ) (i : ι) : run step s [i] = step s i := by
  simp [run_cons]

variable {is past : List ι} {C' : List ι → σ → ι → Prop} {s : σ} {J : σ → List ι → List ο → Prop}
  {I : σ → Prop}

theorem along_append {js : List ι} : Along C step past s (is ++ js) ↔
      Along C step past s is ∧ Along C step (past ++ is) (run step s is).1 js := by
  induction is generalizing s past with
  | nil => simp [Along]
  | cons i is ih =>
    simp only [cons_append, Along, ih, run_cons, and_assoc, append_assoc, nil_append]

theorem along_of_forall (h : ∀ past s i, C past s i) (past : List ι) (s : σ) (is : List ι) :
    Along C step past s is := by
  induction is generalizing past s with
  | nil => trivial
  | cons i is ih => exact ⟨h past s i, ih _ _⟩

theorem along_of_mem {Q : ι → Prop} (h : ∀ i ∈ is, Q i) (past : List ι) (s : σ) :
    Along (fun _ _ i => Q i) step past s is := by
  induction is generalizing past s with
  | nil => trivial
  | cons i is ih =>
    exact ⟨h i mem_cons_self, ih (fun j hj => h j (mem_cons_of_mem i hj)) _ _⟩

theorem forall_outputs_iff {P : ο → Prop} (past : List ι) (s : σ) (is : List ι) :
    (∀ o ∈ (run step s is).2, P o) ↔ Along (fun _ s i => ∀ o ∈ (step s i).2, P o) step past s is := by
  induction is generalizing past s with
  | nil => simp [Along]
  | cons i is ih => simp only [run_cons, forall_mem_append, Along, ih (past ++ [i])]

theorem along_congr (h : ∀ past s i, C past s i ↔ C' past s i) (past : List ι) (s : σ) (is : List ι) :
    Along C step past s is ↔ Along C' step past s is := by
  induction is generalizing past s with
  | nil => exact Iff.rfl
  | cons i is ih => exact and_congr (h past s i) (ih _ _)

theorem along_congr_of_invariant (hstep : ∀ past s i, I s → C past s i → I (step s i).1)
    (h : ∀ past s i, I s → (C past s i ↔ C' past s i)) (past : List ι) (hs : I s) (is : List ι) :
    Along C step past s is ↔ Along C' step past s is := by
  induction is generalizing past s with
  | nil => exact Iff.rfl
  | cons i is ih =>
    rw [Along, Along, ← h past s i hs]
    exact and_congr_right fun hC => ih _ (hstep past s i hs hC)

theorem run_induction_from
    (hstep : ∀ s i is os, C is s i → J s is os → J (step s i).1 (is ++ [i]) (os ++ (step s i).2))
    (past : List ι) (os₀ : List ο) (hJ : J s past os₀) (hC : Along C step past s is) :
    J (run step s is).1 (past ++ is) (os₀ ++ (run step s is).2) := by
  induction is generalizing s past os₀ with
  | nil => simpa using hJ
  | cons i is ih =>
    have h := ih (past ++ [i]) (os₀ ++ (step s i).2) (hstep s i past os₀ hC.1 hJ) hC.2
    simpa only [run_cons, append_assoc, singleton_append] using h

/-- **Induction over a run.** What every step meeting `C` keeps holds at the end of a run whose
steps meet `C`. -/
theorem run_induction
    (hstep : ∀ s i is os, C is s i → J s is os → J (step s i).1 (is ++ [i]) (os ++ (step s i).2))
    (hJ : J s [] []) (hC : Along C step [] s is) : J (run step s is).1 is (run step s is).2 :=
  run_induction_from hstep [] [] hJ hC

theorem run_induction_always
    (hstep : ∀ s i is os, J s is os → J (step s i).1 (is ++ [i]) (os ++ (step s i).2))
    (hJ : J s [] []) (is : List ι) : J (run step s is).1 is (run step s is).2 :=
  run_induction (C := fun _ _ _ => True) (fun s i is os _ h => hstep s i is os h) hJ
    (along_of_forall (fun _ _ _ => trivial) _ _ _)

theorem run_invariant (hstep : ∀ s i, I s → I (step s i).1) (hI : I s) (is : List ι) :
    I (run step s is).1 := by
  induction is generalizing s with
  | nil => exact hI
  | cons i is ih => exact ih (hstep s i hI)

/-- What every step meeting `C` puts out from a state with the invariant `I` holds of all outputs
of a run whose steps meet `C`. -/
theorem outputs_of_along {P : ο → Prop} (hstep : ∀ past s i, I s → C past s i → I (step s i).1)
    (hout : ∀ past s i, I s → C past s i → ∀ o ∈ (step s i).2, P o) (hI : I s)
    (hC : Along C step past s is) : ∀ o ∈ (run step s is).2, P o := by
  induction is generalizing past s with
  | nil => simp
  | cons i is ih =>
    intro o ho
    rcases mem_append.1 ho with ho | ho
    · exact hout past s i hI hC.1 o ho
    · exact ih (hstep past s i hI hC.1) hC.2 o ho

theorem run_outputs {P : ο → Prop} (hstep : ∀ s i, I s → I (step s i).1)
    (hout : ∀ s i, I s → ∀ o ∈ (step s i).2, P o) (hI : I s) (is : List ι) :
    ∀ o ∈ (run step s is).2, P o :=
  outputs_of_along (C := fun _ _ _ => True) (fun _ s i h _ => hstep s i h)
    (fun _ s i h _ => hout s i h) hI (along_of_forall (fun _ _ _ => trivial) [] s is)

theorem along_and (h : Along C step past s is) (h' : Along C' step past s is) :
    Along (fun past s i => C past s i ∧ C' past s i) step past s is := by
  induction is generalizing past s with
  | nil => trivial
  | cons i is ih => exact ⟨⟨h.1, h'.1⟩, ih h.2 h'.2⟩

/-- If each step from a state with `I` keeps `I` exactly if it meets `C`, all states of a run have
`I` exactly if all its steps meet `C`. The steps are known to meet `D`. -/
theorem forall_states_iff_along {D : List ι → σ → ι → Prop}
    (hstep : ∀ past s i, I s → D past s i → (I (step s i).1 ↔ C past s i)) (hI : I s)
    (hD : Along D step past s is) :
    (∀ is₁ is₂, is = is₁ ++ is₂ → I (run step s is₁).1) ↔ Along C step past s is := by
  induction is generalizing past s with
  | nil =>
    refine ⟨fun _ => trivial, fun _ is₁ is₂ h => ?_⟩
    rw [(append_eq_nil_iff.1 h.symm).1]
    exact hI
  | cons i is ih =>
    have hiff := hstep past s i hI hD.1
    constructor
    · intro hall
      have hnext : I (step s i).1 := hall [i] is rfl
      refine ⟨hiff.1 hnext, (ih hnext hD.2).1 fun is₁ is₂ h => ?_⟩
      exact hall (i :: is₁) is₂ (by rw [h, cons_append])
    · rintro ⟨hC, hrest⟩ is₁ is₂ h
      cases is₁ with
      | nil => exact hI
      | cons j is₁ =>
        obtain ⟨rfl, rfl⟩ := List.cons.inj h
        exact (ih (hiff.2 hC) hD.2).2 hrest is₁ is₂ rfl

theorem run_eq_foldl (f : σ → ι → σ) (out : σ → ι → List ο) (s : σ) (is : List ι) :
    (run (fun s i => (f s i, out s i)) s is).1 = is.foldl f s := by
  induction is generalizing s with
  | nil => rfl
  | cons i is ih => exact ih (f s i)

/-- A step may itself be a run of a smaller machine. -/
theorem run_eq_run_flatMap {κ : Type*} {big : σ → κ → σ × List ο} (f : κ → List ι)
    (hkeep : ∀ s i, I s → I (step s i).1) (hbig : ∀ s k, I s → big s k = run step s (f k))
    (hI : I s) (ks : List κ) : run big s ks = run step s (ks.flatMap f) := by
  induction ks generalizing s with
  | nil => rfl
  | cons k ks ih =>
    rw [run_cons, flatMap_cons, run_append, hbig s k hI, ih (run_invariant hkeep hI (f k))]

theorem append_eq_append_cons {α : Type*} {old new a b : List α} {d : α}
    (h : old ++ new = a ++ d :: b) :
    (∃ b', old = a ++ d :: b' ∧ b = b' ++ new) ∨ ∃ a', a = old ++ a' ∧ new = a' ++ d :: b := by
  rcases append_eq_append_iff.1 h with ⟨a', ha, hnew⟩ | ⟨c, hold, hc⟩
  · exact .inr ⟨a', ha, hnew⟩
  · cases c with
    | nil => exact .inr ⟨[], by simpa using hold.symm, hc.symm⟩
    | cons e c =>
      obtain ⟨rfl, rfl⟩ := List.cons.inj hc
      exact .inl ⟨c, hold, rfl⟩

end Run
