import Mathlib.Data.Finset.Filter
import GoDDS.Rtps.Qos

/-!
# What partitions and ownership are for

Publishers and deliveries as the partition and ownership policies see them, whatever the backend.
-/

namespace GoDDS

open Go

structure Publisher where
  guid : GUID
  topic : Str
  partitions : List Str
  exclusive : Bool
  strength : Int32
  deriving DecidableEq

/-- `a` comes before `b`: it is stronger, or as strong with the smaller identifier. -/
def Publisher.Outranks (a b : Publisher) : Prop :=
  b.strength < a.strength ∨ a.strength = b.strength ∧ guidLess a.guid b.guid = true
  deriving Decidable

/-- A write knows the publishers that were open when it was made. -/
structure Publication where
  publisher : Publisher
  opened : Finset Publisher
  deriving DecidableEq

def Publication.contenders (o : Publication) : Finset Publisher :=
  o.opened.filter fun x => x.exclusive = true ∧ x.topic = o.publisher.topic

/-- If there are such publishers, the write is by the first in rank, whatever its partitions. -/
def Publication.InCharge (o : Publication) : Prop :=
  o.contenders ≠ ∅ → o.publisher ∈ o.contenders ∧
    ∀ x ∈ o.contenders, x ≠ o.publisher → o.publisher.Outranks x
  deriving Decidable

/-- A sample kept for late joiners, with the write it comes from, which the source does not keep. -/
structure Kept where
  sample : Sample
  origin : Publication

/-- A delivery knows the write it comes from. -/
structure Delivery where
  origin : Publication
  topic : Str
  partitions : List Str
  deriving DecidableEq

namespace Delivery

def Isolated (d : Delivery) : Prop :=
  partitionsMatch d.origin.publisher.partitions d.partitions = true

/-- The exclusive publishers of the topic, open at the write, that share a partition with the
subscriber. -/
def rivals (d : Delivery) : Finset Publisher :=
  d.origin.opened.filter fun x =>
    x.exclusive = true ∧ x.topic = d.origin.publisher.topic ∧
      partitionsMatch x.partitions d.partitions = true

def Owned (d : Delivery) : Prop :=
  d.rivals ≠ ∅ → d.origin.publisher ∈ d.rivals ∧
    ∀ x ∈ d.rivals, x ≠ d.origin.publisher → d.origin.publisher.Outranks x
  deriving Decidable

theorem owned_of_inCharge {d : Delivery} (hcharge : d.origin.InCharge) (hiso : d.Isolated) :
    d.Owned := by
  intro hne
  have hsub : d.rivals ⊆ d.origin.contenders := by
    intro x hx
    obtain ⟨hmem, hexcl, htopic, -⟩ := Finset.mem_filter.1 hx
    exact Finset.mem_filter.2 ⟨hmem, hexcl, htopic⟩
  have hcont : d.origin.contenders ≠ ∅ := fun h => hne (Finset.subset_empty.1 (h ▸ hsub))
  obtain ⟨hmem, hfirst⟩ := hcharge hcont
  obtain ⟨hopen, hexcl, htopic⟩ := Finset.mem_filter.1 hmem
  exact ⟨Finset.mem_filter.2 ⟨hopen, hexcl, htopic, hiso⟩, fun x hx => hfirst x (hsub hx)⟩

end Delivery

end GoDDS
