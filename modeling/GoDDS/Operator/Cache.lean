import GoDDS.Lib.Go
import GoDDS.Lib.Registry

/-!
# The operator's cache

Informers tell the operator which resources there are, and the webhook looks up their specs.
-/

namespace GoDDS.Operator

open Go

structure Unstructured (α : Type) where
  nspace : Str
  name : Str
  object : α

/-- What an informer hands over. A tombstone has the key of the deleted object and the last state
known of it; `other` is nil or of another type. -/
inductive Obj (α : Type) where
  | unstructured (u : Unstructured α)
  | deletedFinalStateUnknown (key : Str) (obj : Obj α)
  | other

inductive Event (α : Type) where
  | add (obj : Obj α)
  | update (old new : Obj α)
  | delete (obj : Obj α)

def key (nspace name : Str) : Str := nspace ++ 47 :: name

variable {α σ : Type}

def toUnstructured : Obj α → Option (Unstructured α)
  | .unstructured u => some u
  | .deletedFinalStateUnknown _ (.unstructured u) => some u
  | _ => none

/-- `decode` is `ParticipantSpecFromUnstructured` for `Participants`, `DomainSpecFromUnstructured`
for `Domains`. -/
def upsert (decode : Unstructured α → Option σ) (store : Table Str σ) (obj : Obj α) : Table Str σ :=
  match toUnstructured obj with
  | none => store
  | some u =>
    match decode u with
    | none => store
    | some spec => store.set (key u.nspace u.name) spec

/-- A deletion that comes without the deleted object is dropped. -/
def remove (store : Table Str σ) (obj : Obj α) : Table Str σ :=
  match toUnstructured obj with
  | none => store
  | some u => store.erase (key u.nspace u.name)

def eventHandler (decode : Unstructured α → Option σ) (store : Table Str σ) : Event α → Table Str σ
  | .add obj => upsert decode store obj
  | .update _ obj => upsert decode store obj
  | .delete obj => remove store obj

def get (store : Table Str σ) (nspace name : Str) : Option σ := store (key nspace name)

/-! ## What it should serve -/

def Event.obj : Event α → Obj α
  | add obj => obj
  | update _ obj => obj
  | delete obj => obj

/-- The object is the resource of this name; a tombstone without it is told by its key. -/
def Obj.isFor (nspace name : Str) (obj : Obj α) : Bool :=
  match toUnstructured obj, obj with
  | some u, _ => u.nspace = nspace ∧ u.name = name
  | none, .deletedFinalStateUnknown k _ => k = key nspace name
  | none, _ => false

def Event.isFor (nspace name : Str) (e : Event α) : Bool := e.obj.isFor nspace name

def Event.spec (decode : Unstructured α → Option σ) : Event α → Option σ
  | .add obj => (toUnstructured obj).bind decode
  | .update _ obj => (toUnstructured obj).bind decode
  | .delete _ => none

/-- The spec of the last event for the resource, if it has one. -/
def served (decode : Unstructured α → Option σ) (nspace name : Str) (events : List (Event α)) :
    Option σ :=
  (events.filter (Event.isFor nspace name)).getLast?.bind (Event.spec decode)

/-- The handler does not return early: there is an object, and an added or updated one decodes. -/
def Event.applies (decode : Unstructured α → Option σ) : Event α → Bool
  | .add obj => ((toUnstructured obj).bind decode).isSome
  | .update _ obj => ((toUnstructured obj).bind decode).isSome
  | .delete obj => (toUnstructured obj).isSome

/-- An event that leaves an older spec in the cache. -/
structure Event.Stale (decode : Unstructured α → Option σ) (nspace name : Str)
    (past : List (Event α)) (e : Event α) : Prop where
  same : e.isFor nspace name = true
  ignored : e.applies decode = false
  older : served decode nspace name past ≠ none

variable {decode : Unstructured α → Option σ} {nspace name : Str} {past : List (Event α)}
  {store : Table Str σ} {e : Event α}

theorem served_concat : served decode nspace name (past ++ [e]) =
    if e.isFor nspace name then e.spec decode else served decode nspace name past := by
  unfold served
  rw [List.filter_append]
  by_cases h : e.isFor nspace name = true <;> simp [h]

theorem key_inj {ns nm : Str} (hns : 47 ∉ nspace) (hname : 47 ∉ name) :
    key nspace name = key ns nm ↔ ns = nspace ∧ nm = name := by
  rw [key, key, List.append_cons_inj_of_notMem hns hname]
  simp [eq_comm]

theorem isFor_of_some {u : Unstructured α} {obj : Obj α} (hu : toUnstructured obj = some u) :
    obj.isFor nspace name = decide (u.nspace = nspace ∧ u.name = name) := by
  simp [Obj.isFor, hu]

theorem get_upsert {u : Unstructured α} {spec : σ} (hns : 47 ∉ nspace) (hname : 47 ∉ name)
    {obj : Obj α} (hu : toUnstructured obj = some u) (hdec : decode u = some spec) :
    get (upsert decode store obj) nspace name =
      if obj.isFor nspace name then some spec else get store nspace name := by
  have hkey : key nspace name = key u.nspace u.name ↔ _ := key_inj hns hname
  rw [isFor_of_some hu]
  unfold upsert get
  by_cases hsame : u.nspace = nspace ∧ u.name = name
  · simp [hu, hdec, hkey.2 hsame, hsame]
  · simp [hu, hdec, Table.set_ne _ _ (mt hkey.1 hsame), hsame]

theorem get_remove {u : Unstructured α} (hns : 47 ∉ nspace) (hname : 47 ∉ name) {obj : Obj α}
    (hu : toUnstructured obj = some u) : get (remove store obj) nspace name =
      if obj.isFor nspace name then none else get store nspace name := by
  have hkey : key nspace name = key u.nspace u.name ↔ _ := key_inj hns hname
  rw [isFor_of_some hu]
  unfold remove get
  by_cases hsame : u.nspace = nspace ∧ u.name = name
  · simp [hu, hkey.2 hsame, hsame]
  · simp [hu, Table.erase_ne _ (mt hkey.1 hsame), hsame]

open Event

theorem get_of_applies (hns : 47 ∉ nspace) (hname : 47 ∉ name) (h : e.applies decode = true) :
    get (eventHandler decode store e) nspace name =
      if e.isFor nspace name then e.spec decode else get store nspace name := by
  have hupsert : ∀ obj : Obj α, ((toUnstructured obj).bind decode).isSome →
      get (upsert decode store obj) nspace name =
        if obj.isFor nspace name then (toUnstructured obj).bind decode else get store nspace name := by
    intro obj hsome
    obtain ⟨spec, hspec⟩ := Option.isSome_iff_exists.1 hsome
    obtain ⟨u, hu, hdec⟩ := Option.bind_eq_some_iff.1 hspec
    rw [get_upsert hns hname hu hdec, hspec]
  cases e with
  | add obj => exact hupsert obj h
  | update old obj => exact hupsert obj h
  | delete obj =>
    obtain ⟨u, hu⟩ := Option.isSome_iff_exists.1 h
    exact get_remove hns hname hu

theorem eventHandler_of_not_applies (store : Table Str σ) (h : e.applies decode = false) :
    eventHandler decode store e = store ∧ e.spec decode = none := by
  have hupsert : ∀ obj : Obj α, ((toUnstructured obj).bind decode).isSome = false →
      upsert decode store obj = store ∧ (toUnstructured obj).bind decode = none := by
    intro obj hfalse
    have hnone := Option.not_isSome_iff_eq_none.1 (Bool.eq_false_iff.1 hfalse)
    refine ⟨?_, hnone⟩
    unfold upsert
    cases hu : toUnstructured obj with
    | none => rfl
    | some u => simp_all
  cases e with
  | add obj => exact hupsert obj h
  | update old obj => exact hupsert obj h
  | delete obj =>
    have hu : toUnstructured obj = none := by simpa [applies] using h
    exact ⟨by simp [eventHandler, remove, hu], rfl⟩

theorem get_eventHandler (hns : 47 ∉ nspace) (hname : 47 ∉ name)
    (hget : get store nspace name = served decode nspace name past)
    (hstale : ¬ e.Stale decode nspace name past) :
    get (eventHandler decode store e) nspace name = served decode nspace name (past ++ [e]) := by
  rw [served_concat, ← hget]
  cases h : e.applies decode with
  | true => exact get_of_applies hns hname h
  | false =>
    obtain ⟨hstore, hspec⟩ := eventHandler_of_not_applies store h
    rw [hstore, hspec]
    split_ifs with hfor
    · rw [hget]
      exact not_not.1 fun holder => hstale ⟨hfor, h, holder⟩
    · rfl

/-- If an event for the resource is ignored only while no spec is to be served for it, then the
cache serves the spec of its last event, or none. -/
theorem cache_tracks {events : List (Event α)} (hns : 47 ∉ nspace) (hname : 47 ∉ name)
    (hstale : ∀ past e later, events = past ++ e :: later → ¬ e.Stale decode nspace name past) :
    get (events.foldl (eventHandler decode) Table.empty) nspace name =
      served decode nspace name events := by
  induction events using List.reverseRecOn with
  | nil => rfl
  | append_singleton past e ih =>
    have hpast := ih fun past' e' later heq => hstale past' e' (later ++ [e]) (by simp [heq])
    rw [List.foldl_concat]
    exact get_eventHandler hns hname hpast (hstale past e [] rfl)

def resource (spec : Nat) : Obj Nat := .unstructured ⟨str "d", str "a", spec⟩

def decodeNat (u : Unstructured Nat) : Option Nat := if u.object = 0 then none else some u.object

def tombstone (obj : Obj Nat) : Obj Nat := .deletedFinalStateUnknown (str "d/a") obj

theorem cache_tracks_tombstone :
    get ([.add (resource 1), .delete (tombstone (resource 1)), .delete (tombstone .other)].foldl
      (eventHandler decodeNat) Table.empty) (str "d") (str "a") = none := by
  refine cache_tracks (by decide) (by decide) fun past e later h hstale => ?_
  have hignored := hstale.ignored
  rcases past with _ | ⟨x, _ | ⟨y, _ | ⟨z, past⟩⟩⟩
  · obtain rfl := (List.cons.inj h).1
    exact absurd hignored (by decide)
  · obtain rfl := (List.cons.inj (List.cons.inj h).2).1
    exact absurd hignored (by decide)
  · simp only [List.cons_append, List.nil_append, List.cons.injEq] at h
    obtain ⟨rfl, rfl, rfl, -⟩ := h
    exact hstale.older (by decide)
  · simp at h

/-- Neither an update that does not decode nor a deletion without the object removes the spec. -/
theorem ignored_events_stale :
    let update := [.add (resource 1), .update (resource 1) (resource 0)]
    let deletion := [.add (resource 1), .delete (tombstone .other)]
    (get (update.foldl (eventHandler decodeNat) Table.empty) (str "d") (str "a") = some 1 ∧
      served decodeNat (str "d") (str "a") update = none) ∧
    get (deletion.foldl (eventHandler decodeNat) Table.empty) (str "d") (str "a") = some 1 ∧
      served decodeNat (str "d") (str "a") deletion = none := by decide

end GoDDS.Operator
