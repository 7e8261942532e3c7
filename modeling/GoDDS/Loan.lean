import GoDDS.Lib.Run
import Mathlib.Tactic.SplitIfs

/-!
# Loaned buffers

`Loan` of `rtps/loan.go` and `mock/loan.go` compares the size with the capacity only, so a negative
size panics. `Commit` writes whatever it is given and puts it into the pool.
-/

namespace GoDDS.Loan

/-- A slice: its array, its length and its capacity. -/
structure Buffer where
  array : Nat
  len : Nat
  cap : Nat
  deriving DecidableEq

/-- `bp` is the pool, whose buffers have at least `size` bytes; `fresh` is the next array. The
arrays on loan are no part of the source's state. -/
structure Publisher where
  closed : Bool
  size : Nat
  bp : List Buffer
  fresh : Nat
  onLoan : List Nat

inductive Answer where
  | ok
  | loaned (buf : Buffer)
  | errClosed
  | errLoanBuffer
  | errWrite
  | panicked
  deriving DecidableEq

/-- The pool may return any of its buffers or a new one, and `Write` may fail. -/
inductive Call where
  | loan (size : Int) (pooled : Option Nat)
  | commit (buf : Buffer) (written : Bool)
  | close

namespace Publisher

def get (lw : Publisher) (pooled : Option Nat) : Buffer × Publisher :=
  match pooled.bind fun i => lw.bp[i]? with
  | some buf => ({ buf with len := 0 }, { lw with bp := lw.bp.erase buf })
  | none => (⟨lw.fresh, 0, lw.size⟩, { lw with fresh := lw.fresh + 1 })

def put (lw : Publisher) (buf : Buffer) : Publisher :=
  if buf.cap < lw.size then lw else { lw with bp := { buf with len := 0 } :: lw.bp }

def loan (lw : Publisher) (size : Int) (pooled : Option Nat) : Publisher × Answer :=
  if lw.closed then (lw, .errClosed)
  else
    let (buf, lw) := lw.get pooled
    if buf.cap < size then (lw.put buf, .errLoanBuffer)
    else if size < 0 then (lw, .panicked)
    else ({ lw with onLoan := buf.array :: lw.onLoan }, .loaned { buf with len := size.toNat })

/-- The last component is what is published. -/
def commit (lw : Publisher) (buf : Buffer) (written : Bool) : Publisher × Answer × List Buffer :=
  ({ lw.put buf with onLoan := lw.onLoan.erase buf.array },
    if lw.closed then (.errClosed, []) else if written then (.ok, [buf]) else (.errWrite, []))

def step (lw : Publisher) : Call → Publisher × List (Answer × List Buffer)
  | .loan size pooled => ((lw.loan size pooled).1, [((lw.loan size pooled).2, [])])
  | .commit buf written => ((lw.commit buf written).1, [(lw.commit buf written).2])
  | .close => ({ lw with closed := true }, [(.ok, [])])

/-- The call does what it should. -/
def Keeps (lw : Publisher) : Call → Prop
  | .loan size pooled =>
    match (lw.loan size pooled).2 with
    | .loaned buf => (buf.len : Int) = size
    | answer => answer ≠ .panicked
  | .commit buf written =>
    buf.array ∈ lw.onLoan ∨ (lw.commit buf written).2 = (.errLoanBuffer, [])
  | .close => True

def Disciplined (lw : Publisher) : Call → Prop
  | .loan size _ => lw.closed ∨ 0 ≤ size
  | .commit buf _ => buf.array ∈ lw.onLoan
  | .close => True

def CommitsLoan (lw : Publisher) : Call → Prop
  | .commit buf _ => buf.array ∈ lw.onLoan
  | _ => True

theorem commit_ne_errLoanBuffer (lw : Publisher) (buf : Buffer) (written : Bool) :
    (lw.commit buf written).2 ≠ (.errLoanBuffer, []) := by
  unfold commit
  split_ifs <;> simp

theorem keeps_iff (lw : Publisher) (c : Call) : lw.Keeps c ↔ lw.Disciplined c := by
  cases c with
  | loan size pooled =>
    rw [Keeps, Disciplined, loan]
    cases lw.closed with
    | true => simp
    | false =>
      obtain ⟨buf, lw'⟩ := lw.get pooled
      simp only [Bool.false_eq_true, if_false, false_or]
      split_ifs with hcap hneg
      · exact iff_of_true (by simp) (by omega)
      · exact iff_of_false (fun h => h rfl) (by omega)
      · exact iff_of_true (Int.toNat_of_nonneg (by omega)) (by omega)
  | commit buf written => exact or_iff_left (lw.commit_ne_errLoanBuffer buf written)
  | close => exact Iff.rfl

open List

/-- No array is on loan twice, or on loan and in the pool, and the pool's buffers are large
enough. -/
structure Exclusive (lw : Publisher) : Prop where
  count : ∀ a, lw.onLoan.count a + (lw.bp.map Buffer.array).count a ≤ if a < lw.fresh then 1 else 0
  cap : ∀ buf ∈ lw.bp, lw.size ≤ buf.cap

def lend (lw : Publisher) (buf : Buffer) : Publisher := { lw with onLoan := buf.array :: lw.onLoan }

variable {lw : Publisher} {buf : Buffer}

theorem Exclusive.get (h : lw.Exclusive) (pooled : Option Nat) :
    lw.size ≤ (lw.get pooled).1.cap ∧ ((lw.get pooled).2.lend (lw.get pooled).1).Exclusive := by
  rw [Publisher.get]
  split
  next buf hbuf =>
    obtain ⟨i, -, hi⟩ := Option.bind_eq_some_iff.1 hbuf
    have hmem := mem_of_getElem? hi
    refine ⟨h.cap buf hmem, fun a => ?_, fun b hb => h.cap b (mem_of_mem_erase hb)⟩
    have hcount := h.count a
    rw [((perm_cons_erase hmem).map _).count_eq, map_cons, count_cons] at hcount
    simp only [lend, count_cons]
    grind
  · refine ⟨Nat.le_refl _, fun a => ?_, h.cap⟩
    have hcount := h.count a
    simp only [lend, count_cons, beq_iff_eq]
    grind

theorem Exclusive.of_lend (h : (lw.lend buf).Exclusive) : lw.Exclusive := by
  refine ⟨fun a => Nat.le_trans (Nat.add_le_add_right ?_ _) (h.count a), h.cap⟩
  exact count_le_count_cons

theorem Exclusive.put (h : (lw.lend buf).Exclusive) : (lw.put buf).Exclusive := by
  have hcount a := h.count a
  simp only [lend, count_cons] at hcount
  rw [Publisher.put]
  split_ifs with hcap
  · exact h.of_lend
  · refine ⟨fun a => ?_, forall_mem_cons.2 ⟨by simpa using hcap, h.cap⟩⟩
    have := hcount a
    simp only [map_cons, count_cons]
    grind

theorem Exclusive.step (h : lw.Exclusive) {c : Call} (hc : lw.CommitsLoan c) :
    (lw.step c).1.Exclusive := by
  cases c with
  | loan size pooled =>
    obtain ⟨-, hget⟩ := h.get pooled
    rw [Publisher.step, loan]
    generalize lw.get pooled = r at *
    dsimp only
    split_ifs
    · exact h
    · exact hget.put
    · exact hget.of_lend
    · exact hget
  | commit buf written =>
    have hlent : (lend { lw with onLoan := lw.onLoan.erase buf.array } buf).Exclusive := by
      refine ⟨fun a => ?_, h.cap⟩
      have hcount := h.count a
      rwa [(perm_cons_erase hc).count_eq] at hcount
    have hput := hlent.put
    rw [Publisher.step, commit]
    unfold Publisher.put at hput ⊢
    split_ifs at hput ⊢ <;> exact hput
  | close => exact ⟨h.count, h.cap⟩

end Publisher

open Publisher

/-- In a run all calls do what they should exactly if no size is negative while the publisher is
open, and every buffer committed is on loan. -/
theorem loan_discipline_iff (lw : Publisher) (calls : List Call) :
    Run.Along (fun _ lw c => Keeps lw c) step [] lw calls ↔
      Run.Along (fun _ lw c => Disciplined lw c) step [] lw calls :=
  Run.along_congr (fun _ lw c => lw.keeps_iff c) [] lw calls

/-- A negative size panics, and a buffer can be committed twice. -/
theorem loan_undisciplined :
    let lw : Publisher := ⟨false, 4096, [], 0, []⟩
    (Run.run step lw [.loan (-1) none]).2 = [(.panicked, [])] ∧
      (Run.run step lw [.loan 1 none, .commit ⟨0, 1, 4096⟩ true, .commit ⟨0, 1, 4096⟩ true]).2 =
        [(.loaned ⟨0, 1, 4096⟩, []), (.ok, [⟨0, 1, 4096⟩]), (.ok, [⟨0, 1, 4096⟩])] := by decide

/-- If only buffers on loan are committed, no two loans share an array, and a loan of at most `size`
bytes succeeds. -/
theorem loans_exclusive (size : Nat) (calls : List Call)
    (h : Run.Along (fun _ lw c => CommitsLoan lw c) step [] ⟨false, size, [], 0, []⟩ calls) :
    let lw := (Run.run step ⟨false, size, [], 0, []⟩ calls).1
    lw.onLoan.Nodup ∧ (∀ buf ∈ lw.bp, buf.array ∉ lw.onLoan) ∧
      ∀ n pooled, lw.closed = false → 0 ≤ n → n ≤ lw.size →
        ∃ buf, (lw.loan n pooled).2 = .loaned buf := by
  intro lw
  have hlw : lw.Exclusive := Run.run_induction (J := fun lw _ _ => lw.Exclusive)
    (fun _ _ _ _ hc h => h.step hc) ⟨by simp, by simp⟩ h
  refine ⟨List.nodup_iff_count.2 fun a => ?_, fun buf hbuf ha => ?_,
    fun n pooled hopen hpos hle => ?_⟩
  · have := hlw.count a
    split_ifs at this <;> omega
  · have := hlw.count buf.array
    have := List.count_pos_iff.2 ha
    have := List.count_pos_iff.2 (List.mem_map_of_mem (f := Buffer.array) hbuf)
    split_ifs at * <;> omega
  · have hcap := (hlw.get pooled).1
    rw [loan, hopen]
    simp only [Bool.false_eq_true, if_false]
    rw [if_neg (by omega), if_neg (by omega)]
    exact ⟨_, rfl⟩

theorem loans_exclusive_two :
    let calls : List Call := [.loan 1 none, .loan (-1) none, .commit ⟨0, 1, 8⟩ true, .loan 8 (some 0),
      .loan 2 none]
    let lw := (Run.run step ⟨false, 8, [], 0, []⟩ calls).1
    lw.onLoan = [2, 0] ∧ lw.onLoan.Nodup := by
  intro calls lw
  have honLoan : (0 : Nat) ∈ [0] := List.mem_singleton_self 0
  exact ⟨rfl, (loans_exclusive 8 calls ⟨trivial, trivial, honLoan, trivial, trivial, trivial⟩).1⟩

end GoDDS.Loan
