import GoDDS.Tools.Idl.Emit
import GoDDS.Tools.Idl.WholeInput

/-!
# Scoping

In IDL a name is looked for in the module of the reference and then in the modules around it
(`Denotes`).

The generator searches from the root, and the first hit counts; an alias is looked for by the last
part of the name alone, and is followed once (`Flat`).
-/

namespace GoDDS.Tools.Idl

open Go Fuel List Option Function

/-! ## Places -/

abbrev Place := List Nat

mutual

def Module.scopes : Module → List (Place × Module)
  | .mk name typedefs enums structs modules =>
    ([], .mk name typedefs enums structs modules) :: scopesEach 0 modules

def scopesEach : Nat → List Module → List (Place × Module)
  | _, [] => []
  | i, sub :: subs => sub.scopes.map (fun s => (i :: s.1, s.2)) ++ scopesEach (i + 1) subs

end

def Module.child (m : Module) (modName : Str) : Option (Nat × Module) :=
  (m.modules.zipIdx.find? fun s => s.1.name = modName).map Prod.swap

def Module.descend : Module → List Str → Option (Place × Module)
  | m, [] => some ([], m)
  | m, modName :: names =>
    (m.child modName).bind fun c => (c.2.descend names).map fun s => (c.1 :: s.1, s.2)

section Locate

variable {α : Type} (decls : Module → List α) (declName : α → Str)

def firstBelow (m : Module) (n : Str) : Option (Place × α) :=
  m.scopes.findSome? fun s => ((decls s.2).find? fun d => declName d = n).map fun d => (s.1, d)

def locate (m : Module) (ref : RefName) : Option (Place × α) :=
  ref.getLast?.bind fun n => (m.descend ref.dropLast).bind fun s =>
    (firstBelow decls declName s.2 n).map fun d => (s.1 ++ d.1, d.2)

end Locate

inductive Target where
  | basic (p : Prim)
  /-- another type without a name, written at the given place -/
  | type (place : Place) (ts : TypeSpec)
  | enum (place : Place) (e : Enum)
  | struct (place : Place) (s : Struct)
  deriving DecidableEq

def Target.ofType (place : Place) : TypeSpec → Target
  | .prim p => basic p
  | ts => type place ts

def namedTarget (m : Module) (ref : RefName) : Option Target :=
  match locate Module.enums Enum.name m ref, locate Module.structs Struct.name m ref with
  | some e, _ => some (.enum e.1 e.2)
  | none, some s => some (.struct s.1 s.2)
  | none, none => none

def target (m : Module) (ref : RefName) : Option Target :=
  match locate Module.typedefs Typedef.name m (bareRefName ref) with
  | none => namedTarget m ref
  | some (place, td) =>
    match td.type with
    | .struct ref' => namedTarget m ref'
    | ts => some (.ofType place ts)

/-! ## The meaning in IDL -/

/-- The module at a place and those around it, from the innermost outwards. -/
def Module.enclosing : Module → Place → List (Place × Module)
  | m, [] => [([], m)]
  | m, i :: is =>
    (match m.modules[i]? with
      | none => []
      | some sub => (sub.enclosing is).map fun s => (i :: s.1, s.2)) ++ [([], m)]

def Module.declared (m : Module) (n : Str) : Option Declaration :=
  ((m.typedefs.find? fun td => td.name = n).map .typedef).or
    (((m.enums.find? fun e => e.name = n).map .enum).or
      ((m.structs.find? fun s => s.name = n).map .struct))

/-- The module a reference is looked for in: the innermost that declares a simple name, or the one
named, whose first part is found like this. -/
def scopeOf (m : Module) (place : Place) : List Str → Str → Option (Place × Module)
  | [], n => (m.enclosing place).find? fun s => (s.2.declared n).isSome
  | modName :: names, _ => do
    let s ← (m.enclosing place).find? fun s => (s.2.child modName).isSome
    let t ← s.2.descend (modName :: names)
    some (s.1 ++ t.1, t.2)

def resolve (m : Module) (place : Place) (ref : RefName) : Option (Place × Declaration) := do
  let n ← ref.getLast?
  let s ← scopeOf m place ref.dropLast n
  let d ← s.2.declared n
  some (s.1, d)

/-- What a reference at a place denotes. Aliases of aliases are followed to the end. -/
inductive Denotes (m : Module) : Place → RefName → Target → Prop where
  | enum {place p : Place} {ref : RefName} {e : Enum} :
      resolve m place ref = some (p, .enum e) → Denotes m place ref (.enum p e)
  | struct {place p : Place} {ref : RefName} {s : Struct} :
      resolve m place ref = some (p, .struct s) → Denotes m place ref (.struct p s)
  | typedef {place p : Place} {ref : RefName} {td : Typedef} :
      resolve m place ref = some (p, .typedef td) → (∀ ref', td.type ≠ .struct ref') →
      Denotes m place ref (.ofType p td.type)
  | chain {place p : Place} {ref ref' : RefName} {td : Typedef} {t : Target} :
      resolve m place ref = some (p, .typedef td) → td.type = .struct ref' →
      Denotes m p ref' t → Denotes m place ref t

section First

variable {α : Type} (decls : Module → List α) (declName : α → Str)

end First

variable {m : Module} {p : Place} {ref : RefName}

section

variable {α : Type} {decls : Module → List α} {declName : α → Str}

theorem firstBelow_snd (n : Str) : (firstBelow decls declName m n).map Prod.snd =
      m.scopes.findSome? fun s => (decls s.2).find? fun d => declName d = n := by
  rw [firstBelow, map_findSome?]
  congr 1
  funext s
  simp [comp_def]

mutual

theorem search_nil : ∀ m : Module, search decls declName m [] = none
  | .mk name typedefs enums structs modules => by
    rw [search.eq_2 _ _ _ _ _ _ _ _ (by simp)]
    have hnone (ds : List α) : (ds.find? fun d => [declName d] = []) = none := by simp
    rw [hnone, searchEach_nil modules]

theorem searchEach_nil : ∀ ms : List Module, searchEach decls declName ms [] = none
  | [] => rfl
  | sub :: subs => by simp [searchEach, search_nil sub, searchEach_nil subs]

end

mutual

theorem search_simple : ∀ (m : Module) (n : Str), search decls declName m [n] =
    m.scopes.findSome? fun s => (decls s.2).find? fun d => declName d = n
  | .mk name typedefs enums structs modules, n => by
    rw [search.eq_2 _ _ _ _ _ _ _ _ (by simp), Module.scopes, findSome?_cons,
      searchEach_simple modules n 0]
    simp only [List.cons.injEq, and_true]
    rfl

theorem searchEach_simple : ∀ (ms : List Module) (n : Str) (i : Nat),
    searchEach decls declName ms [n] =
      (scopesEach i ms).findSome? fun s => (decls s.2).find? fun d => declName d = n
  | [], _, _ => rfl
  | sub :: subs, n, i => by
    rw [searchEach, scopesEach, findSome?_append, findSome?_map, search_simple sub n,
      searchEach_simple subs n (i + 1)]
    dsimp only [comp_def]
    cases sub.scopes.findSome? fun s => (decls s.2).find? fun d => declName d = n <;> rfl

end

theorem searchNamed_eq (ms : List Module) (modName : Str) (ref : RefName) :
    searchNamed decls declName ms modName ref =
      (ms.find? fun s => s.name = modName).bind fun s => search decls declName s ref := by
  induction ms with
  | nil => rfl
  | cons sub subs ih =>
    rw [searchNamed, find?_cons]
    by_cases h : sub.name = modName <;> simp [h, ih]

theorem child_snd (m : Module) (modName : Str) :
    (m.child modName).map Prod.snd = m.modules.find? fun s => s.name = modName := by
  conv_rhs => rw [← zipIdx_map_fst 0 m.modules, find?_map]
  simp [Module.child, comp_def]

theorem search_qualified (m : Module) (modName part : Str) (rest : RefName) :
    search decls declName m (modName :: part :: rest) =
      (m.child modName).bind fun c => search decls declName c.2 (part :: rest) := by
  have hchild := child_snd m modName
  cases m with
  | mk name typedefs enums structs modules =>
    rw [search, searchNamed_eq, ← show _ = modules.find? _ from hchild, bind_map]
    rfl

theorem search_eq_locate (ref : RefName) :
    search decls declName m ref = (locate decls declName m ref).map Prod.snd := by
  rcases eq_nil_or_concat ref with rfl | ⟨quals, n, rfl⟩
  · exact search_nil m
  · rw [concat_eq_append, locate, getLast?_concat, dropLast_concat]
    induction quals generalizing m with
    | nil => simp [search_simple, Module.descend, ← firstBelow_snd]
    | cons modName quals ih =>
      obtain ⟨part, rest, hrest⟩ : ∃ part rest, quals ++ [n] = part :: rest := by
        cases quals <;> simp
      rw [cons_append, hrest, search_qualified, Module.descend]
      cases m.child modName with
      | none => rfl
      | some c =>
        simp only [bind_some]
        rw [← hrest, ih]
        cases hs : c.2.descend quals with
        | none => simp
        | some s => simp [comp_def]

end

theorem target_of_typedef {td : Typedef}
    (htd : locate Module.typedefs Typedef.name m (bareRefName ref) = some (p, td))
    (htype : ∀ ref', td.type ≠ .struct ref') : target m ref = some (.ofType p td.type) := by
  simp only [target, htd]

theorem resolveTypedef_eq (m : Module) (ref : RefName) : resolveTypedef m (.struct ref) =
      match locate Module.typedefs Typedef.name m (bareRefName ref) with
      | none => .struct ref
      | some found => found.2.type := by
  rw [resolveTypedef, searchTypedef, search_eq_locate]
  cases locate Module.typedefs Typedef.name m (bareRefName ref) <;> rfl

def targetName (m : Module) (ref : RefName) : RefName :=
  match resolveTypedef m (.struct ref) with
  | .struct name => name
  | _ => ref

namespace Emit

variable (cs : Casing) (m : Module) (style : Style) (depth : Nat) (visited : List RefName)

/-- The code for a name: that of the enum, or the code of the fields of the struct. -/
def namedCode (name : RefName) (r : Str) : Option Target → Bounded Line
  | some (.enum _ _) => .ok (style.enum r (refGoName cs name), [])
  | some (.struct _ s) =>
    if name ∈ visited then
      .ok (fail (style.verb ++ str " " ++ r ++ str ": cyclic struct " ++ refText name))
    else do
      let parts ← Outcome.each (fun f : Field => expr cs m style depth (name :: visited) f.type
        (r ++ str "." ++ toGoName cs f.name)) s.fields
      .ok (block parts)
  | some (.basic p) => .ok (style.basic p r, [])
  | some (.type _ ts) => expr cs m style (depth + 1) visited ts r
  | none => .ok (fail (style.verb ++ str " " ++ r ++ str ": unknown struct " ++ refText name))

theorem expr_of_resolved {ts : TypeSpec} {name : RefName} (hts : resolveTypedef m ts = .struct name)
    (r : Str) : expr cs m style (depth + 1) visited ts r =
      namedCode cs m style depth visited name r (namedTarget m name) := by
  rw [expr, hts]
  simp only [searchEnum, searchStruct, search_eq_locate, namedTarget]
  cases locate Module.enums Enum.name m name with
  | some e => rfl
  | none =>
    cases locate Module.structs Struct.name m name with
    | some s => rfl
    | none => rfl

theorem expr_congr {ts ts' : TypeSpec} (h : resolveTypedef m ts = resolveTypedef m ts') (r : Str) :
    expr cs m style (depth + 1) visited ts r = expr cs m style (depth + 1) visited ts' r := by
  rw [expr, expr, h]

theorem expr_of_target {ref : RefName} {t : Option Target} (ht : target m ref = t) (r : Str) :
    expr cs m style (depth + 1) visited (.struct ref) r =
      namedCode cs m style depth visited (targetName m ref) r t := by
  subst ht
  have hres := resolveTypedef_eq m ref
  cases htd : locate Module.typedefs Typedef.name m (bareRefName ref) with
  | none =>
    rw [htd] at hres
    simp only [targetName, hres, target, htd]
    exact expr_of_resolved cs m style depth visited hres r
  | some found =>
    obtain ⟨p, td⟩ := found
    rw [htd] at hres
    simp only at hres
    by_cases htype : ∃ ref', td.type = .struct ref'
    · obtain ⟨ref', href'⟩ := htype
      rw [href'] at hres
      simp only [targetName, hres, target, htd, href']
      exact expr_of_resolved cs m style depth visited hres r
    · rw [not_exists] at htype
      have hself : resolveTypedef m td.type = td.type := by
        cases hts : td.type with
        | struct ref' => exact absurd hts (htype ref')
        | _ => rfl
      rw [target_of_typedef htd htype,
        expr_congr cs m style depth visited (hres.trans hself.symm) r]
      cases hts : td.type with
      | struct ref' => exact absurd hts (htype ref')
      | prim k => simp only [expr, resolveTypedef, Target.ofType, namedCode]
      | _ => rfl

/-- The code for a reference is that of the fields of what its name means. -/
theorem expr_reference (ref : RefName) (r : Str) :
    expr cs m style (depth + 1) visited (.struct ref) r =
      namedCode cs m style depth visited (targetName m ref) r (target m ref) :=
  expr_of_target cs m style depth visited rfl r

end Emit

end GoDDS.Tools.Idl
