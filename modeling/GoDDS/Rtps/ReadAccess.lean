import GoDDS.Rtps.LocalDelivery
import GoDDS.Security.Access

/-!
# Read permissions

A participant with an access policy checks the topic a subscriber asks for when the subscriber is
created, as a name; the dispatch reads it as a pattern with levels `+` and `#`.
-/

namespace GoDDS

open ByteCodec Go Security Table Run Option

namespace Security.AccessPolicy

def controller (pol : AccessPolicy) : AccessController := ⟨pol.canRead, pol.canWrite⟩

/-- A sample on `topic` can reach a subscriber of `pattern`: by the dispatch, or by its file. -/
def CanReach (persistDir pattern topic : Str) : Prop :=
  topicMatches pattern topic = true ∨
    persistDir ≠ [] ∧ Participant.persistName topic = Participant.persistName pattern

/-- What may be written and can reach a subscriber of the pattern may be read. -/
def Covers (pol : AccessPolicy) (persistDir pattern : Str) : Prop :=
  ∀ topic, topic ≠ [] → pol.canWrite topic = true → CanReach persistDir pattern topic →
    pol.canRead topic = true

end Security.AccessPolicy

variable {pol : AccessPolicy} {p : Participant}

namespace Participant

open AccessPolicy (CanReach)

/-! ## What is kept was written with permission -/

def Permitted (pol : AccessPolicy) (origin : Publication) : Prop :=
  origin.publisher.topic ≠ [] ∧ pol.canWrite origin.publisher.topic = true

/-- Writers may write, and what is kept, for a topic or in a file, comes from such writers. -/
structure Licensed (pol : AccessPolicy) (cfg : ParticipantConfig) (v : View) : Prop where
  writers : ∀ eid w, v.writers eid = some w → w.1.topic ≠ [] ∧ pol.canWrite w.1.topic = true
  kept : ∀ topic k, v.lastSample topic = some k →
    Permitted pol k.origin ∧ CanReach cfg.persistDir topic k.origin.publisher.topic
  files : ∀ name f, v.files name = some f →
    Permitted pol f.origin ∧ persistName f.origin.publisher.topic = name

theorem licensed_new (pol : AccessPolicy) (cfg : ParticipantConfig)
    (antiReplay : Option ReplayGuard) : Licensed pol cfg (new cfg antiReplay).view :=
  { writers := fun _ _ hw => by cases hw
    kept := fun _ _ hk => by cases hk
    files := fun _ _ hf => by cases hf }

theorem Licensed.keptFor (h : Licensed pol p.config p.view) {topic : Str} {kept : Kept}
    (hkept : p.keptFor topic = some kept) :
    Permitted pol kept.origin ∧ CanReach p.persistDir topic kept.origin.publisher.topic := by
  unfold Participant.keptFor at hkept
  cases hlast : p.lastSample topic with
  | some k =>
    rw [hlast] at hkept
    obtain rfl := some.inj hkept
    exact h.kept topic k hlast
  | none =>
    rw [hlast] at hkept
    obtain ⟨f, hload, rfl⟩ := map_eq_some_iff.1 hkept
    unfold persistLoad at hload
    split_ifs at hload with hdir
    obtain ⟨g, hfile, hg⟩ := bind_eq_some_iff.1 hload
    dsimp only at hg
    split_ifs at hg
    obtain rfl := some.inj hg
    obtain ⟨hperm, hname⟩ := h.files _ g hfile
    exact ⟨hperm, .inr ⟨hdir, hname⟩⟩

theorem Licensed.permitted (h : Licensed pol p.config p.view) {w : Writer}
    (hget : p.writers.get? w.eid = some w) : Permitted pol (p.publication w) :=
  h.writers w.eid (writerView w) (congrArg (Option.map writerView) hget)

theorem licensed_stable {cfg : ParticipantConfig}
    (hpolicy : cfg.accessControl = some pol.controller) :
    Stable cfg (fun _ _ => True) (Licensed pol cfg) where
  write p w payload now hcfg hget _ h := by
    subst hcfg
    have hperm := h.permitted hget
    refine ⟨h.writers, forall_set ⟨hperm, .inl (topicMatches_self _)⟩ h.kept, ?_⟩
    unfold View.afterWrite
    split_ifs
    · exact h.files
    · exact forall_set ⟨hperm, rfl⟩ h.files
  addWriter p topic typeName qos now hcfg _ haccept h := by
    obtain ⟨htopic, -, hcan⟩ := haccept
    have hpermitted := hcan pol.controller (by rw [hcfg]; exact hpolicy)
    exact ⟨forall_set ⟨htopic, hpermitted⟩ h.writers, h.kept, h.files⟩
  addReader p req hcfg haccept h := by
    subst hcfg
    refine ⟨h.writers, ?_, h.files⟩
    rcases p.recalled_cases req.topic req.qos with hsame | ⟨kept, hkept, hset⟩
    · rw [hsame]
      exact h.kept
    · rw [hset]
      exact forall_set (h.keptFor hkept) h.kept
  closeWriter p w hcfg hget _ h := by
    subst hcfg
    exact ⟨forall_set (h.permitted hget) h.writers, h.kept, h.files⟩
  unsubscribe v eid h := ⟨h.writers, h.kept, h.files⟩
  close v h := ⟨h.writers, h.kept, h.files⟩

theorem Licensed.delivered (h : Licensed pol p.config p.view) {c : Call} {d : Delivery}
    (hd : d ∈ (p.serve c).2) :
    Permitted pol d.origin ∧ CanReach p.persistDir d.topic d.origin.publisher.topic := by
  have hchange := p.serve_change c
  generalize (p.serve c).1 = q at hchange
  generalize (p.serve c).2 = ds at hchange hd
  cases hchange with
  | published hget hopen hview hds =>
    obtain ⟨r, -, hadm, rfl⟩ := hds d hd
    have hperm := h.permitted hget
    exact ⟨hperm, .inl (hadm.topic.resolve_left hperm.1)⟩
  | readerAdded req hreq haccept hview =>
    obtain ⟨-, kept, hkept, -, rfl⟩ := mem_joinDeliveries.1 hd
    exact h.keptFor hkept
  | _ => cases hd

/-! ## Runs that deliver -/

theorem messages_empty (w : Writer) (guidPrefix : GuidPrefix) (sn : SequenceNumber) (now : Int) :
    (w.messages guidPrefix sn now []).isSome := by
  have hpos := w.fragmentSize_pos
  have hlen := length_cdrWrapPayload []
  unfold Writer.messages
  dsimp only
  split_ifs with hlong
  · -- the fragment size is below four
    rw [isSome_map]
    unfold splitIntoFragmentsN
    have hsize : UInt16.ofNat w.fragmentSize.toNat ≠ 0 := by
      intro hzero
      have hmod : (UInt16.ofNat w.fragmentSize.toNat).toNat = w.fragmentSize.toNat % 2 ^ 16 :=
        UInt16.toNat_ofNat'
      rw [hzero] at hmod
      simp at hlen hmod
      omega
    rw [if_neg (show ¬ w.fragmentSize ≤ 0 by omega), if_neg hsize]
    rfl
  · rfl

theorem write_empty {w : Writer} (hopen : w.closed = false) (hsec : p.security = none) (rnd : Bytes)
    (now : Int) : (p.write w [] rnd now).error = none := by
  let w₁ := { w with seq := w.seq + 1 }
  obtain ⟨msgs, hmsgs⟩ :=
    isSome_iff_exists.1 (messages_empty w₁ p.guidPrefix (u64ToSN w₁.seq) now)
  have hseal : sealPayload p.config rnd [] = some [] := by
    unfold sealPayload
    rw [hsec]
  have hseal' : sealPayload ((p.countWrite w₁.topic []).setWriter w₁).config rnd [] =
    some [] := hseal
  have hmsgs' : w₁.messages ((p.countWrite w₁.topic []).setWriter w₁).guidPrefix (u64ToSN w₁.seq) now
    [] = some msgs := hmsgs
  have hfits : ¬ (0 < w.qos.maxSampleSize ∧ w.qos.maxSampleSize < ([] : Bytes).length) := by
    simp only [List.length_nil, Int.natCast_zero]
    omega
  rw [write, if_neg (by simp [hopen]), if_neg hfits]
  dsimp only
  rw [hseal']
  dsimp only
  rw [hmsgs']

section

variable {cfg : ParticipantConfig} {pol : AccessPolicy} {pattern topic : Str}

theorem acceptsReader_of_canRead (hac : p.accessControl = some pol.controller)
    (hopen : p.closed = false) (hne : pattern ≠ []) (hread : pol.canRead pattern) :
    p.AcceptsReader pattern := by
  refine ⟨hne, ?_⟩
  have hcan : pol.controller.canRead pattern := hread
  unfold refuseSubscriber
  rw [if_neg (by simp [hopen]), if_neg (by simp [hac, hcan])]

theorem acceptsWriter_of_canWrite (hac : p.accessControl = some pol.controller)
    (hopen : p.closed = false) (hne : topic ≠ []) (hwrite : pol.canWrite topic) :
    p.AcceptsWriter topic := by
  refine ⟨hne, hopen, fun ac hmem => ?_⟩
  obtain rfl := some.inj (hac.symm.trans hmem)
  exact hwrite

variable (hac : cfg.accessControl = some pol.controller) (hsec : cfg.security = none)
  (hpattern : pattern ≠ []) (hread : pol.canRead pattern) (htopic : topic ≠ [])
  (hwrite : pol.canWrite topic)

include hac hsec hpattern hread htopic hwrite

theorem reaches_live (hmatch : topicMatches pattern topic = true) :
    ∃ calls, ∃ d ∈ (Run.run serve (new cfg none) calls).2,
      d.topic = pattern ∧ d.origin.publisher.topic = topic := by
  let p₀ := new cfg none
  let r := Reader.new (p₀.readerConfig pattern defaultQoS .ofDefaults none)
  let p₁ := (p₀.newSubscriberLocked pattern defaultTypeName defaultQoS .ofDefaults none 0).participant
  let w := Writer.new (p₁.writerConfig topic defaultQoS)
  let p₂ := (p₁.addWriter (p₁.writerConfig topic defaultQoS) defaultTypeName 0).1
  have hstep₁ : p₀.serve (.newSubscriber pattern defaultTypeName defaultQoS .ofDefaults 0) =
      (p₁, []) :=
    serve_newSubscriber (acceptsReader_of_canRead hac rfl hpattern hread) _ _ _ _
  have hstep₂ : p₁.serve (.newPublisher topic defaultTypeName defaultQoS 0) = (p₂, []) :=
    serve_newPublisher (acceptsWriter_of_canWrite hac rfl htopic hwrite) _ _ _
  have hget : p₂.writers.get? w.eid = some w := (get?_setWriter _ _ _).trans (if_pos rfl)
  have hr : p₂.readers.get? r.eid = some r := Registry.get?_insert_self _ _
  have hadm : p₂.Admits w.config r.config := ⟨.inr hmatch, rfl, rfl⟩
  have hwilling : r.Willing (p₂.localDispatch { w with seq := w.seq + 1 } [] 0) :=
    ⟨rfl, fun h => absurd h (lt_irrefl 0), rfl, r.depth_pos⟩
  have harrives := (arrives_iff (write_empty rfl hsec [] 0) hr hwilling).2 hadm
  refine ⟨[.newSubscriber pattern defaultTypeName defaultQoS .ofDefaults 0,
    .newPublisher topic defaultTypeName defaultQoS 0, .write w.eid [] [] 0],
    ⟨p₂.publication w, r.topic, r.partitions⟩, ?_, rfl, rfl⟩
  rw [run_cons, hstep₁, run_cons, hstep₂, run_singleton]
  exact delivered_of_arrives hget hr harrives

def transientQoS : QoS := { defaultQoS with durability := .transientLocal }

theorem reaches_file (hdir : cfg.persistDir ≠ [])
    (hname : persistName topic = persistName pattern) (hother : pattern ≠ topic) :
    ∃ calls, ∃ d ∈ (Run.run serve (new cfg none) calls).2,
      d.topic = pattern ∧ d.origin.publisher.topic = topic := by
  let p₀ := new cfg none
  let w := Writer.new (p₀.writerConfig topic defaultQoS)
  let p₁ := (p₀.addWriter (p₀.writerConfig topic defaultQoS) defaultTypeName 0).1
  let p₂ := (p₁.write w [] [] 0).participant
  have hstep₁ : p₀.serve (.newPublisher topic defaultTypeName defaultQoS 0) = (p₁, []) :=
    serve_newPublisher (acceptsWriter_of_canWrite hac rfl htopic hwrite) _ _ _
  have hget : p₁.writers.get? w.eid = some w := (get?_setWriter _ _ _).trans (if_pos rfl)
  have hview : p₂.view = p₁.view.afterWrite cfg w.config [] 0 (p₁.publication w) := by
    rw [view_write hget, if_pos (write_empty rfl hsec [] 0)]
    rfl
  have hcfg : p₂.config = cfg := (sameSetup_write p₁ w [] [] 0).cfg
  have hclosed : p₂.closed = false := congrArg View.closed hview
  -- nothing is kept in memory for the pattern, and its file is that of the topic
  have hlast : p₂.lastSample pattern = none := by
    have hlast := congrFun (congrArg View.lastSample hview) pattern
    exact hlast.trans (set_ne _ _ hother)
  have hfile : p₂.files (persistName pattern) = some ⟨[], p₁.publication w⟩ := by
    have hfiles := congrArg View.files hview
    unfold View.afterWrite at hfiles
    rw [if_neg hdir] at hfiles
    rw [← hname]
    exact (congrFun hfiles _).trans (set_self _ _ _)
  have hkept : p₂.keptFor pattern = some
      ⟨⟨pattern, [], zeroTime, 0, zeroGUID⟩, p₁.publication w⟩ := by
    unfold keptFor persistLoad
    rw [hlast, hcfg, if_neg hdir, hfile]
    rfl
  have haccept : p₂.AcceptsReader pattern :=
    acceptsReader_of_canRead ((congrArg ParticipantConfig.accessControl hcfg).trans hac) hclosed
      hpattern hread
  have hjoin : ⟨p₁.publication w, pattern, []⟩ ∈
      p₂.joinDeliveries transientQoS (p₂.readerConfig pattern transientQoS .ofDefaults none) :=
    mem_joinDeliveries.2 ⟨rfl, _, hkept, rfl, rfl⟩
  refine ⟨[.newPublisher topic defaultTypeName defaultQoS 0, .write w.eid [] [] 0,
    .newSubscriber pattern defaultTypeName transientQoS .ofDefaults 0],
    ⟨p₁.publication w, pattern, []⟩, ?_, rfl, rfl⟩
  rw [run_cons, hstep₁, run_cons, serve_write hget, run_singleton, serve_newSubscriber haccept]
  exact List.mem_append_right _ (List.mem_append_right _ hjoin)

end

/-- A subscriber of a pattern gets only samples it may read, in every run, if the policy covers the
pattern: every topic that may be written and that the pattern matches, or that shares its file, may
be read. -/
theorem read_access_iff {cfg : ParticipantConfig} {pol : AccessPolicy} {pattern : Str}
    (hac : cfg.accessControl = some pol.controller) (hpattern : pattern ≠ [])
    (hread : pol.canRead pattern = true) : (pol.Covers cfg.persistDir pattern → ∀ antiReplay calls,
      ∀ d ∈ (Run.run serve (Participant.new cfg antiReplay) calls).2, d.topic = pattern →
        pol.canRead d.origin.publisher.topic = true) ∧ (cfg.security = none → (∀ antiReplay calls,
      ∀ d ∈ (Run.run serve (Participant.new cfg antiReplay) calls).2, d.topic = pattern →
        pol.canRead d.origin.publisher.topic = true) → pol.Covers cfg.persistDir pattern) := by
  constructor
  · intro hcovers antiReplay calls d hd htopic
    have hall : Permitted pol d.origin ∧
        CanReach cfg.persistDir d.topic d.origin.publisher.topic := by
      refine (licensed_stable hac).run_deliveries
        (P := fun d => Permitted pol d.origin ∧
          CanReach cfg.persistDir d.topic d.origin.publisher.topic)
        ?_ ⟨rfl, licensed_new pol cfg antiReplay⟩
        (along_of_forall (fun _ _ _ => trivial) _ _ _) d hd
      rintro q c rfl hq - d hd
      exact hq.delivered hd
    obtain ⟨⟨hne, hwrite⟩, hreaches⟩ := hall
    exact hcovers _ hne hwrite (htopic ▸ hreaches)
  · intro hsec hsafe topic htopic hwrite hreaches
    by_contra hunread
    have hother : pattern ≠ topic := fun h => hunread (h ▸ hread)
    have hrun : ∃ calls, ∃ d ∈ (Run.run serve (new cfg none) calls).2,
        d.topic = pattern ∧ d.origin.publisher.topic = topic := by
      rcases hreaches with hmatch | ⟨hdir, hname⟩
      · exact reaches_live hac hsec hpattern hread htopic hwrite hmatch
      · exact reaches_file hac hsec hpattern hread htopic hwrite hdir hname hother
    obtain ⟨calls, d, hd, hdt, hdo⟩ := hrun
    exact hunread (hdo ▸ hsafe none calls d hd hdt)

def withPolicy (pol : AccessPolicy) : ParticipantConfig :=
  { ParticipantConfig.ofDefaults (FixedBytes.copy 12 [1]) with accessControl := some pol.controller }

theorem read_access_readWrite :
    let pol : AccessPolicy := ⟨[⟨str "vehicle/*", permReadWrite⟩]⟩
    ∀ calls, ∀ d ∈ (Run.run serve (new (withPolicy pol) none) calls).2,
      d.topic = str "vehicle/#" → pol.canRead d.origin.publisher.topic = true := by
  intro pol
  have hread : pol.canRead (str "vehicle/#") = true := by decide +kernel
  have hcovers : pol.Covers (withPolicy pol).persistDir (str "vehicle/#") := by
    intro topic _ hwrite _
    have hsame : pol.canRead topic = pol.canWrite topic := by
      show AccessPolicy.firstMatch topic permRead pol.rules = AccessPolicy.firstMatch topic _ _
      unfold AccessPolicy.firstMatch
      rcases pathMatch (str "vehicle/*") topic with _ | _ | _ <;> rfl
    rw [hsame]
    exact hwrite
  exact (read_access_iff rfl (by decide) hread).1 hcovers none

/-- `vehicle/*` accepts a subscriber of `vehicle/#`, which then gets the samples of
`vehicle/a/b`. -/
theorem hash_is_no_name :
    let pol : AccessPolicy := ⟨[⟨str "vehicle/*", permRead⟩, ⟨str "vehicle/*/*", permWrite⟩]⟩
    let calls := [.newSubscriber (str "vehicle/#") defaultTypeName defaultQoS .ofDefaults 0,
      .newPublisher (str "vehicle/a/b") defaultTypeName defaultQoS 0,
      .write (entityIdForWriter 2) [1] [] 0]
    (Run.run serve (new (withPolicy pol) none) calls).2.map
        (fun d => (d.topic, d.origin.publisher.topic)) =
      [(str "vehicle/#", str "vehicle/a/b")] ∧
    pol.canRead (str "vehicle/a/b") = false := by decide +kernel

/-- Whatever a policy says about reading, samples are delivered only if their topic may be
written. -/
theorem write_access (cfg : ParticipantConfig) (pol : AccessPolicy)
    (antiReplay : Option ReplayGuard) (calls : List Call) :
    let p := new { cfg with accessControl := some pol.controller } antiReplay
    ∀ d ∈ (Run.run serve p calls).2, pol.canWrite d.origin.publisher.topic = true ∧
      CanReach cfg.persistDir d.topic d.origin.publisher.topic := by
  refine (licensed_stable rfl).run_deliveries ?_ ⟨rfl, licensed_new pol _ antiReplay⟩
    (along_of_forall (fun _ _ _ => trivial) _ _ _)
  rintro q c hcfg hq - d hd
  obtain ⟨⟨-, hwrite⟩, hreach⟩ := Licensed.delivered (hcfg ▸ hq) hd
  have hdir : q.persistDir = cfg.persistDir := by rw [hcfg]; rfl
  exact ⟨hwrite, hdir ▸ hreach⟩

end Participant

end GoDDS
