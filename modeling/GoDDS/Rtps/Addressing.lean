import GoDDS.Rtps.Receive

/-!
# The addresses of matched readers

An address of matched readers carries the prefix of the participant whose reader was met there
first, and the content filters of all readers there.
-/

namespace GoDDS

open ByteCodec Go Security List

/-! ## One address -/

variable {ri : EndpointInfo} {partitions : List Str} {loc : Locator} {p : Participant}
  {topicName : Str}

namespace ReaderLocator

def merge (rl : ReaderLocator) (ri : EndpointInfo) : ReaderLocator :=
  { rl with
    contentFilters :=
      match ri.contentFilter with
      | none => []
      | some cf => if rl.contentFilters.isEmpty then [] else rl.contentFilters ++ [cf] }

theorem unfiltered_merge (rl : ReaderLocator) (ri : EndpointInfo) :
    (rl.merge ri).contentFilters = [] ↔ rl.contentFilters = [] ∨ ri.contentFilter = none := by
  unfold merge
  cases ri.contentFilter with
  | none => simp
  | some cf => cases h : rl.contentFilters <;> simp

theorem passes_merge (rl : ReaderLocator) (ri : EndpointInfo) (payload : Bytes) :
    (rl.merge ri).passes payload ↔
      rl.passes payload ∨ evalContentFilter ri.contentFilter payload := by
  unfold merge passes evalContentFilter
  cases ri.contentFilter with
  | none => simp
  | some cf => cases h : rl.contentFilters <;> simp [or_assoc]

theorem loc_ite_merge (rl : ReaderLocator) (ri : EndpointInfo) (loc : Locator) :
    (if rl.loc = loc then rl.merge ri else rl).loc = rl.loc := by
  split_ifs <;> rfl

variable (ri)

theorem addReaderLocator_known {acc : List ReaderLocator}
    (h : ∃ rl ∈ acc, rl.loc = loc) :
    addReaderLocator acc loc ri = acc.map fun rl => if rl.loc = loc then rl.merge ri else rl := by
  have hany : (acc.any fun l => l.loc = loc) = true := by
    simpa using h
  rw [addReaderLocator, if_pos hany]
  rfl

theorem addReaderLocator_new {acc : List ReaderLocator}
    (h : ∀ rl ∈ acc, rl.loc ≠ loc) :
    addReaderLocator acc loc ri = acc ++ [⟨loc, ri.guid.guidPrefix, ri.contentFilter.toList⟩] := by
  have hany : ¬ (acc.any fun l => l.loc = loc) = true := by
    simpa using h
  rw [addReaderLocator, if_neg hany]

end ReaderLocator

namespace Participant

def matchedReaders (p : Participant) (topicName : Str) (partitions : List Str) :
    List (EndpointInfo × Locator) :=
  p.sedp.remoteReaders.items.filterMap fun ri =>
    if ri.topicName = topicName ∧ partitionsMatch partitions ri.partitions = true then
      ((p.sedp.remoteReaderLocs ri.guid).filter fun loc => loc.kind ≠ locatorKindInvalid).map
        fun loc => (ri, loc)
    else none

theorem matchedReaderLocators_eq (p : Participant) (topicName : Str) (partitions : List Str) :
    p.matchedReaderLocators topicName partitions = (p.matchedReaders topicName partitions).foldl
        (fun acc x => addReaderLocator acc x.2 x.1) [] := by
  unfold matchedReaderLocators matchedReaders
  rw [foldl_filterMap]
  congr 1
  funext acc ri
  split_ifs
  · cases p.sedp.remoteReaderLocs ri.guid with
    | none => rfl
    | some loc =>
      dsimp only
      by_cases hkind : loc.kind = locatorKindInvalid
      · rw [if_pos hkind, Option.filter_some, if_neg (by simp [hkind])]
        rfl
      · rw [if_neg hkind, Option.filter_some, if_pos (by simp [hkind])]
        rfl
  · rfl

theorem mem_matchedReaders {x : EndpointInfo × Locator} :
    x ∈ p.matchedReaders topicName partitions ↔
      x.1 ∈ p.sedp.remoteReaders.items ∧ x.1.topicName = topicName ∧
        partitionsMatch partitions x.1.partitions ∧
        p.sedp.remoteReaderLocs x.1.guid = some x.2 ∧ x.2.kind ≠ locatorKindInvalid := by
  obtain ⟨info, l⟩ := x
  unfold matchedReaders
  rw [mem_filterMap]
  constructor
  · rintro ⟨ri, hri, h⟩
    split_ifs at h with hmatch
    obtain ⟨loc, hloc, heq⟩ := Option.map_eq_some_iff.1 h
    obtain ⟨rfl, rfl⟩ := Prod.mk.inj heq
    obtain ⟨hloc, hkind⟩ := Option.filter_eq_some_iff.1 hloc
    exact ⟨hri, hmatch.1, hmatch.2, hloc, of_decide_eq_true hkind⟩
  · rintro ⟨hri, htopic, hpart, hloc, hkind⟩
    refine ⟨info, hri, ?_⟩
    rw [if_pos ⟨htopic, hpart⟩, hloc]
    simp [hkind]

/-! ## What the addresses say -/

structure Summary (ms : List (EndpointInfo × Locator)) (acc : List ReaderLocator) : Prop where
  first : ∀ rl ∈ acc, ∃ ri, ms.find? (fun m => m.2 = rl.loc) = some (ri, rl.loc) ∧
    rl.guidPrefix = ri.guid.guidPrefix
  unfiltered : ∀ rl ∈ acc, rl.contentFilters = [] ↔
    ∃ ri, (ri, rl.loc) ∈ ms ∧ ri.contentFilter = none
  passes : ∀ rl ∈ acc, ∀ payload, rl.passes payload = true ↔
    ∃ ri, (ri, rl.loc) ∈ ms ∧ evalContentFilter ri.contentFilter payload = true
  complete : ∀ m ∈ ms, ∃ rl ∈ acc, rl.loc = m.2

section

variable {ms : List (EndpointInfo × Locator)} {acc : List ReaderLocator} {loc : Locator}

theorem mem_append_other {loc' : Locator} {ri' : EndpointInfo} (hne : loc' ≠ loc) :
    (ri', loc') ∈ ms ++ [(ri, loc)] ↔ (ri', loc') ∈ ms := by
  simp [hne]

theorem mem_append_same {ri' : EndpointInfo} :
    (ri', loc) ∈ ms ++ [(ri, loc)] ↔ (ri', loc) ∈ ms ∨ ri' = ri := by simp

theorem Summary.add_known (h : Summary ms acc) (ri : EndpointInfo)
    (hknown : ∃ rl ∈ acc, rl.loc = loc) :
    Summary (ms ++ [(ri, loc)]) (addReaderLocator acc loc ri) := by
  rw [ReaderLocator.addReaderLocator_known ri hknown]
  constructor
  · intro rl' hrl'
    obtain ⟨rl, hrl, rfl⟩ := List.mem_map.1 hrl'
    obtain ⟨first, hfirst, hpeer⟩ := h.first rl hrl
    refine ⟨first, ?_, ?_⟩
    · rw [rl.loc_ite_merge ri loc, find?_append, hfirst]
      rfl
    · rw [← hpeer]
      split_ifs <;> rfl
  · intro rl' hrl'
    obtain ⟨rl, hrl, rfl⟩ := List.mem_map.1 hrl'
    by_cases hloc : rl.loc = loc
    · subst hloc
      rw [if_pos rfl, ReaderLocator.unfiltered_merge, h.unfiltered rl hrl]
      simp [ReaderLocator.merge, or_and_right, exists_or]
    · rw [if_neg hloc, h.unfiltered rl hrl]
      simp [mem_append_other hloc]
  · intro rl' hrl' payload
    obtain ⟨rl, hrl, rfl⟩ := List.mem_map.1 hrl'
    by_cases hloc : rl.loc = loc
    · subst hloc
      rw [if_pos rfl, ReaderLocator.passes_merge, h.passes rl hrl]
      simp [ReaderLocator.merge, or_and_right, exists_or]
    · rw [if_neg hloc, h.passes rl hrl]
      simp [mem_append_other hloc]
  · intro m hm
    have hrl : ∃ rl ∈ acc, rl.loc = m.2 := by
      rcases mem_append.1 hm with hm | hm
      · exact h.complete m hm
      · rw [mem_singleton.1 hm]
        exact hknown
    obtain ⟨rl, hrl, hloc⟩ := hrl
    exact ⟨_, List.mem_map_of_mem hrl, (rl.loc_ite_merge ri loc).trans hloc⟩

theorem Summary.add_new (h : Summary ms acc) (ri : EndpointInfo) (hnew : ∀ rl ∈ acc, rl.loc ≠ loc) :
    Summary (ms ++ [(ri, loc)]) (addReaderLocator acc loc ri) := by
  have hnone : ∀ m ∈ ms, m.2 ≠ loc := by
    intro m hm hloc
    obtain ⟨rl, hrl, hrl'⟩ := h.complete m hm
    exact hnew rl hrl (hrl'.trans hloc)
  have halone : ∀ ri', (ri', loc) ∈ ms ++ [(ri, loc)] ↔ ri' = ri := by
    intro ri'
    rw [mem_append_same]
    exact or_iff_right fun hm => hnone _ hm rfl
  rw [ReaderLocator.addReaderLocator_new ri hnew]
  constructor
  · intro rl hrl
    rcases mem_append.1 hrl with hrl | hrl
    · obtain ⟨first, hfirst, hpeer⟩ := h.first rl hrl
      refine ⟨first, ?_, hpeer⟩
      rw [find?_append, hfirst]
      rfl
    · rw [mem_singleton.1 hrl]
      refine ⟨ri, ?_, rfl⟩
      rw [find?_append, find?_eq_none.2 fun m hm => by simpa using hnone m hm]
      simp
  · intro rl hrl
    rcases mem_append.1 hrl with hrl | hrl
    · rw [h.unfiltered rl hrl]
      simp [mem_append_other (hnew rl hrl)]
    · rw [mem_singleton.1 hrl]
      simp only [halone]
      cases hcf : ri.contentFilter <;> simp [hcf]
  · intro rl hrl payload
    rcases mem_append.1 hrl with hrl | hrl
    · rw [h.passes rl hrl]
      simp [mem_append_other (hnew rl hrl)]
    · rw [mem_singleton.1 hrl]
      simp only [halone]
      cases hcf : ri.contentFilter <;> simp [ReaderLocator.passes, evalContentFilter, hcf]
  · intro m hm
    rcases mem_append.1 hm with hm | hm
    · obtain ⟨rl, hrl, hloc⟩ := h.complete m hm
      exact ⟨rl, mem_append_left _ hrl, hloc⟩
    · rw [mem_singleton.1 hm]
      exact ⟨_, mem_append_right _ (mem_singleton_self _), rfl⟩

theorem Summary.add (h : Summary ms acc) (m : EndpointInfo × Locator) :
    Summary (ms ++ [m]) (addReaderLocator acc m.2 m.1) := by
  by_cases hknown : ∃ rl ∈ acc, rl.loc = m.2
  · exact h.add_known m.1 hknown
  · exact h.add_new m.1 fun rl hrl hloc => hknown ⟨rl, hrl, hloc⟩

theorem Summary.foldl (h : Summary ms acc) (ns : List (EndpointInfo × Locator)) :
    Summary (ms ++ ns) (ns.foldl (fun acc m => addReaderLocator acc m.2 m.1) acc) := by
  induction ns generalizing ms acc with
  | nil => rwa [append_nil]
  | cons n ns ih =>
    have hstep := ih (h.add n)
    rwa [append_assoc] at hstep

end

theorem summary_matchedReaderLocators (p : Participant) (topicName : Str) (partitions : List Str) :
    Summary (p.matchedReaders topicName partitions)
      (p.matchedReaderLocators topicName partitions) := by
  have hempty : Summary [] [] :=
    ⟨fun _ h => (by cases h), fun _ h => (by cases h), fun _ h => (by cases h),
      fun _ h => (by cases h)⟩
  rw [matchedReaderLocators_eq]
  exact hempty.foldl _

/-- A sample is sent to an address exactly if a matched reader there has no content filter or one
that accepts it. -/
theorem passes_iff_wanted {rl : ReaderLocator}
    (h : rl ∈ p.matchedReaderLocators topicName partitions) (payload : Bytes) :
    rl.passes payload = true ↔ ∃ ri ∈ p.sedp.remoteReaders.items, ri.topicName = topicName ∧
      partitionsMatch partitions ri.partitions = true ∧
      p.sedp.remoteReaderLocs ri.guid = some rl.loc ∧
      ∀ cf ∈ ri.contentFilter, cf.expr payload = true := by
  have hsum := p.summary_matchedReaderLocators topicName partitions
  obtain ⟨first, hfirst, -⟩ := hsum.first rl h
  have hkind := (mem_matchedReaders.1 (mem_of_find?_eq_some hfirst)).2.2.2.2
  have hfilter : ∀ ri : EndpointInfo, evalContentFilter ri.contentFilter payload = true ↔
      ∀ cf ∈ ri.contentFilter, cf.expr payload = true := fun ri => by
    cases ri.contentFilter <;> simp [evalContentFilter]
  rw [hsum.passes rl h payload]
  simp only [mem_matchedReaders, hfilter]
  constructor
  · rintro ⟨ri, ⟨hri, htopic, hpart, hloc, -⟩, hcf⟩
    exact ⟨ri, hri, htopic, hpart, hloc, hcf⟩
  · rintro ⟨ri, hri, htopic, hpart, hloc, hcf⟩
    exact ⟨ri, ⟨hri, htopic, hpart, hloc, hkind⟩, hcf⟩

theorem exists_matchedReader {l : ReaderLocator}
    (h : l ∈ p.matchedReaderLocators topicName partitions) :
    ∃ x ∈ p.matchedReaders topicName partitions, x.1.guid.guidPrefix = l.guidPrefix := by
  obtain ⟨ri, hfirst, hpeer⟩ :=
    (p.summary_matchedReaderLocators topicName partitions).first l h
  exact ⟨_, mem_of_find?_eq_some hfirst, hpeer.symm⟩

/-! ## Who is addressed -/

structure SameReaders (p q : Participant) : Prop where
  readers : q.sedp.remoteReaders.items.Perm p.sedp.remoteReaders.items
  locs : q.sedp.remoteReaderLocs = p.sedp.remoteReaderLocs

theorem SameReaders.mem_iff {q : Participant} (h : SameReaders p q) {m : EndpointInfo × Locator} :
    m ∈ q.matchedReaders topicName partitions ↔ m ∈ p.matchedReaders topicName partitions := by
  unfold matchedReaders
  rw [h.locs]
  exact (h.readers.filterMap _).mem_iff

def visitLast (p : Participant) (pre : GuidPrefix) : Participant :=
  let others := fun ri : EndpointInfo => decide (ri.guid.guidPrefix ≠ pre)
  let items := p.sedp.remoteReaders.items
  { p with
    sedp := { p.sedp with
      remoteReaders :=
        { items := items.filter others ++ items.filter fun ri => !others ri
          nodup := ((filter_append_perm others items).map _).nodup_iff.2
            p.sedp.remoteReaders.nodup } } }

theorem sameReaders_visitLast (p : Participant) (pre : GuidPrefix) :
    SameReaders p (p.visitLast pre) :=
  ⟨filter_append_perm _ _, rfl⟩

theorem first_of_others_first {visit : EndpointInfo → Option (EndpointInfo × Locator)}
    (hvisit : ∀ ri m, visit ri = some m → m.1 = ri) {items : List EndpointInfo} {pre : GuidPrefix}
    {first : EndpointInfo} (hfirst : ((items.filter (fun ri => decide (ri.guid.guidPrefix ≠ pre)) ++
      items.filter fun ri => !decide (ri.guid.guidPrefix ≠ pre)).filterMap visit).find?
        (fun m => m.2 = loc) = some (first, loc)) (hpre : first.guid.guidPrefix = pre)
    (hri : (ri, loc) ∈ items.filterMap visit) : ri.guid.guidPrefix = pre := by
  by_contra hother
  obtain ⟨x, hx, hx'⟩ := mem_filterMap.1 hri
  obtain rfl : ri = x := hvisit x _ hx'
  have hmem : (ri, loc) ∈
      (items.filter fun ri => decide (ri.guid.guidPrefix ≠ pre)).filterMap visit :=
    mem_filterMap.2 ⟨ri, mem_filter.2 ⟨hx, decide_eq_true hother⟩, hx'⟩
  -- so the search ends among the readers of others
  have hsome : (((items.filter fun ri => decide (ri.guid.guidPrefix ≠ pre)).filterMap visit).find?
      fun m => m.2 = loc).isSome :=
    find?_isSome.2 ⟨(ri, loc), hmem, decide_eq_true rfl⟩
  obtain ⟨found, hfound⟩ := Option.isSome_iff_exists.1 hsome
  rw [filterMap_append, find?_append, hfound, Option.some_or] at hfirst
  obtain rfl := Option.some.inj hfirst
  obtain ⟨y, hy, hy'⟩ := mem_filterMap.1 (mem_of_find?_eq_some hfound)
  obtain rfl : first = y := hvisit y _ hy'
  exact of_decide_eq_true (mem_filter.1 hy).2 hpre

theorem first_visitLast {pre : GuidPrefix} {first : EndpointInfo}
    (hfirst : ((p.visitLast pre).matchedReaders topicName partitions).find? (fun m => m.2 = loc) =
      some (first, loc)) (hpre : first.guid.guidPrefix = pre)
    (hri : (ri, loc) ∈ p.matchedReaders topicName partitions) : ri.guid.guidPrefix = pre := by
  refine first_of_others_first ?_ hfirst hpre hri
  intro ri m h
  split_ifs at h
  obtain ⟨loc, -, rfl⟩ := Option.map_eq_some_iff.1 h
  rfl

/-- A participant is addressed under its own prefix, in whatever order the remote readers are
visited, exactly if one of its matched readers has an address to which no other participant has a
matched reader. -/
theorem addressed_iff (p : Participant) (topicName : Str) (partitions : List Str)
    (pre : GuidPrefix) : (∀ q, SameReaders p q →
        ∃ rl ∈ q.matchedReaderLocators topicName partitions, rl.guidPrefix = pre) ↔
      ∃ loc, (∃ ri, (ri, loc) ∈ p.matchedReaders topicName partitions) ∧
        ∀ ri, (ri, loc) ∈ p.matchedReaders topicName partitions → ri.guid.guidPrefix = pre := by
  constructor
  · intro h
    obtain ⟨rl, hrl, hpre⟩ := h _ (p.sameReaders_visitLast pre)
    have hsum := (p.visitLast pre).summary_matchedReaderLocators topicName partitions
    obtain ⟨first, hfirst, hpeer⟩ := hsum.first rl hrl
    have hmem := (p.sameReaders_visitLast pre).mem_iff.1 (mem_of_find?_eq_some hfirst)
    exact ⟨rl.loc, ⟨first, hmem⟩, fun ri hri => first_visitLast hfirst (hpeer.symm.trans hpre) hri⟩
  · rintro ⟨loc, ⟨ri, hri⟩, halone⟩ q hq
    have hsum := q.summary_matchedReaderLocators topicName partitions
    obtain ⟨rl, hrl, hloc⟩ := hsum.complete _ (hq.mem_iff.2 hri)
    obtain ⟨first, hfirst, hpeer⟩ := hsum.first rl hrl
    rw [hloc] at hfirst
    exact ⟨rl, hrl, hpeer.trans (halone first (hq.mem_iff.1 (mem_of_find?_eq_some hfirst)))⟩

def sharedReader (k : UInt8) (cf : Option ContentFilterSpec) : EndpointInfo :=
  { guid := ⟨FixedBytes.copy 12 [k], entityIdForReader 1⟩, topicName := str "t", contentFilter := cf }

/-- A participant that knows these readers, all of them at one address. -/
def sharedAddress (infos : List EndpointInfo) (loc : Locator) : Participant :=
  let base := Participant.new (ParticipantConfig.ofDefaults (FixedBytes.copy 12 [1])) none
  { base with
    sedp := { base.sedp with
      remoteReaders := infos.foldr (fun info R => R.insert info) Registry.empty
      remoteReaderLocs := fun g => if g ∈ infos.map EndpointInfo.guid then some loc else none } }

theorem passes_shared :
    let cf (k : UInt8) : ContentFilterSpec := ⟨fun payload => payload.head? = some k, [], []⟩
    let p := sharedAddress [sharedReader 2 (some (cf 1)), sharedReader 3 (some (cf 2))]
      ⟨locatorKindUDPv4, 7411, FixedBytes.copy 16 []⟩
    ∃ rl ∈ p.matchedReaderLocators (str "t") [], rl.passes [2] = true ∧ rl.passes [3] = false := by
  intro cf p
  have hne : p.matchedReaderLocators (str "t") [] ≠ [] := cons_ne_nil _ _
  have hrl := head_mem hne
  refine ⟨_, hrl, ?_, ?_⟩
  · refine (passes_iff_wanted hrl [2]).2
      ⟨sharedReader 3 (some (cf 2)), mem_cons_of_mem _ mem_cons_self, rfl, rfl, rfl, ?_⟩
    rintro f ⟨⟩
    rfl
  · rw [Bool.eq_false_iff, ne_eq, passes_iff_wanted hrl [3]]
    rintro ⟨ri, hri, -, -, -, hcf⟩
    rcases mem_pair.1 hri with rfl | rfl
    · exact absurd (hcf _ rfl) (by decide)
    · exact absurd (hcf _ rfl) (by decide)

/-- Two participants behind one relay advertise the same address: the second is not addressed. -/
theorem second_not_addressed :
    let q₁ := sharedReader 2 none
    let q₂ := sharedReader 3 none
    let p := sharedAddress [q₁, q₂] ⟨locatorKindUDPv4, 7411, FixedBytes.copy 16 []⟩
    ((p.matchedReaders (str "t") []).map fun m => m.1.guid.guidPrefix) =
        [q₁.guid.guidPrefix, q₂.guid.guidPrefix] ∧
      ((p.matchedReaderLocators (str "t") []).map fun rl => rl.guidPrefix) =
        [q₁.guid.guidPrefix] := by decide +kernel

end Participant

end GoDDS
