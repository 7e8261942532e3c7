import Mathlib.Data.List.Basic
import GoDDS.Lib.Go

/-!
# File paths

Go's `filepath.Clean` and `filepath.Join` where the separator is the slash.
-/

namespace Go.FilePath

open ByteCodec List

def separator : UInt8 := 0x2F

def dot : Str := str "."

def dotDot : Str := str ".."

def rooted (path : Str) : Bool := path.head? = some separator

def Dropped (e : Str) : Prop := e = [] ∨ e = dot
  deriving Decidable

def cleanStep (root : Bool) (out : List Str) (e : Str) : List Str :=
  if Dropped e then out
  else if e = dotDot then
    match out with
    | [] => if root then [] else [e]
    | last :: rest => if last ≠ dotDot then rest else if root then out else e :: out
  else e :: out

/-- A path is its elements and whether it starts at the root. -/
def elements (path : Str) : List Str :=
  ((path.splitOn separator).foldl (cleanStep (rooted path)) []).reverse

def render (root : Bool) (es : List Str) : Str :=
  if root then separator :: [separator].intercalate es
  else if es = [] then dot
  else [separator].intercalate es

def clean (path : Str) : Str := render (rooted path) (elements path)

def join : List Str → Str
  | [] => []
  | e :: es => if e = [] then join es else clean ([separator].intercalate (e :: es))

example : clean (str "/a//b/./../c/") = str "/a/c" := by decide +kernel

/-- The name is an element that stays. -/
def Plain (e : Str) : Prop := ¬ Dropped e ∧ e ≠ dotDot ∧ separator ∉ e
  deriving Decidable

theorem cleanStep_plain {e : Str} (h : Plain e) (root : Bool) (out : List Str) :
    cleanStep root out e = e :: out := by
  obtain ⟨hdropped, hdotDot, -⟩ := h
  unfold cleanStep
  rw [if_neg hdropped, if_neg hdotDot]

variable {es : List Str} {dir : Str}

theorem foldl_cleanStep_plain (h : ∀ e ∈ es, Plain e) (root : Bool) (out : List Str) :
    es.foldl (cleanStep root) out = es.reverse ++ out := by
  induction es generalizing out with
  | nil => rfl
  | cons e es ih =>
    obtain ⟨he, hes⟩ := forall_mem_cons.1 h
    rw [foldl_cons, cleanStep_plain he, ih hes, reverse_cons, append_assoc]
    rfl

theorem splitOn_append (as bs : Str) : (as ++ separator :: bs).splitOn separator =
      as.splitOn separator ++ bs.splitOn separator :=
  splitOnP_append_cons as bs (by simp)

theorem splitOn_of_not_mem {e : Str} (h : separator ∉ e) : e.splitOn separator = [e] :=
  splitOnP_eq_singleton fun x hx => by
    have : x ≠ separator := fun heq => h (heq ▸ hx)
    simpa using this

/-! ## Joining -/

theorem rooted_append (hdir : dir ≠ []) (rest : Str) : rooted (dir ++ rest) = rooted dir := by
  cases dir with
  | nil => exact absurd rfl hdir
  | cons c cs => rfl

theorem elements_append (hdir : dir ≠ []) {name : Str} (hname : separator ∉ name) :
    elements (dir ++ separator :: name) =
      (cleanStep (rooted dir) (elements dir).reverse name).reverse := by
  unfold elements
  rw [rooted_append hdir, splitOn_append, splitOn_of_not_mem hname, foldl_append, reverse_reverse]
  rfl

theorem join_pair (hdir : dir ≠ []) (name : Str) :
    join [dir, name] = clean (dir ++ separator :: name) := by
  rw [join, if_neg hdir]
  congr 1
  simp [List.intercalate]

/-- Joining a plain name adds it to the elements of a directory. -/
theorem join_plain (hdir : dir ≠ []) {name : Str} (hname : Plain name) :
    join [dir, name] = render (rooted dir) (elements dir ++ [name]) := by
  rw [join_pair hdir, clean, rooted_append hdir, elements_append hdir hname.2.2,
    cleanStep_plain hname, reverse_cons, reverse_reverse]

theorem elements_render (h : ∀ e ∈ es, Plain e) : elements (render true es) = es := by
  have hroot : rooted (separator :: [separator].intercalate es) = true := rfl
  have hfold : ((separator :: [separator].intercalate es).splitOn separator).foldl (cleanStep true)
      [] = es.reverse := by
    rw [show separator :: [separator].intercalate es = [] ++ separator ::
      [separator].intercalate es from rfl, splitOn_append]
    by_cases hes : es = []
    · rw [hes]
      rfl
    · rw [splitOn_intercalate separator (fun e he => (h e he).2.2) hes, foldl_append,
        foldl_cleanStep_plain h]
      exact append_nil _
  rw [render, if_pos rfl, elements, hroot, hfold, reverse_reverse]

/-- Paths written down from different elements are different. -/
theorem render_injective {root : Bool} {es' : List Str} (hes : es ≠ []) (hes' : es' ≠ [])
    (h : ∀ e ∈ es, separator ∉ e) (h' : ∀ e ∈ es', separator ∉ e)
    (heq : render root es = render root es') : es = es' := by
  have hbody : [separator].intercalate es = [separator].intercalate es' := by
    unfold render at heq
    cases root with
    | true => exact (List.cons.inj heq).2
    | false => simpa [hes, hes'] using heq
  rw [← splitOn_intercalate separator h hes, hbody, splitOn_intercalate separator h' hes']

theorem exists_intercalate_concat (es : List Str) :
    ∃ front : Str, ∀ e, [separator].intercalate (es ++ [e]) = front ++ e := by
  induction es with
  | nil => exact ⟨[], fun e => by simp [List.intercalate]⟩
  | cons d es ih =>
    obtain ⟨front, hfront⟩ := ih
    refine ⟨d ++ separator :: front, fun e => ?_⟩
    rw [cons_append, intercalate_cons_of_ne_nil (by simp), hfront]
    simp

theorem render_concat_injective {root : Bool} {a b : Str}
    (h : render root (es ++ [a]) = render root (es ++ [b])) : a = b := by
  obtain ⟨front, hfront⟩ := exists_intercalate_concat es
  have hbody : front ++ a = front ++ b := by
    unfold render at h
    rw [hfront, hfront] at h
    cases root with
    | true => exact (List.cons.inj h).2
    | false => simpa using h
  exact append_cancel_left hbody

end Go.FilePath
