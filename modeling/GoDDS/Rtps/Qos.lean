import GoDDS.Lib.Go
import GoDDS.Lib.Registry
import GoDDS.Rtps.Guid

/-!
# Quality of service, topics and locators

Topic patterns (`wildcard.go`), partitions and ownership (`qos_enforce.go`), the QoS record and
samples of the core package, and locators (`locator.go`).
-/

namespace GoDDS

open ByteCodec Go

/-! ## Topics -/

def plus : Str := str "+"

def hash : Str := str "#"

def slash : UInt8 := 0x2F

def matchSlices : List Str → List Str → Bool
  | [], tSegs => tSegs.isEmpty
  | p :: _, [] => p = hash
  | p :: ps, t :: ts =>
    if p = hash then true
    else if p = plus ∨ p = t then matchSlices ps ts
    else false

def topicMatches (pattern topic : Str) : Bool :=
  matchSlices (pattern.splitOn slash) (topic.splitOn slash)

theorem matchSlices_self (segs : List Str) : matchSlices segs segs := by
  induction segs with
  | nil => rfl
  | cons s segs ih => simp [matchSlices, ih]

/-- Every topic matches itself, so the equality test before a pattern match changes nothing. -/
theorem topicMatches_self (topic : Str) : topicMatches topic topic :=
  matchSlices_self _

/-- The partition names of an endpoint; the empty name when it has none. -/
def partitionNames (ps : List Str) : List Str := if ps.isEmpty then [[]] else ps

def partitionsMatch (a b : List Str) : Bool :=
  (partitionNames a).any fun x => (partitionNames b).any fun y => x = y

theorem partitionsMatch_self (a : List Str) : partitionsMatch a a := by
  have hne : partitionNames a ≠ [] := by
    unfold partitionNames
    split_ifs with h
    · exact List.cons_ne_nil _ _
    · simpa using h
  obtain ⟨x, hx⟩ := List.exists_mem_of_ne_nil _ hne
  exact List.any_eq_true.2 ⟨x, hx, List.any_eq_true.2 ⟨x, hx, decide_eq_true rfl⟩⟩

theorem partitionsMatch_comm (a b : List Str) : partitionsMatch a b = partitionsMatch b a := by
  rw [Bool.eq_iff_iff]
  simp only [partitionsMatch, List.any_eq_true, decide_eq_true_eq]
  constructor
  all_goals
    rintro ⟨x, hx, y, hy, rfl⟩
    exact ⟨x, hy, x, hx, rfl⟩

def guidLess (a b : GUID) : Bool :=
  if a.guidPrefix ≠ b.guidPrefix then a.guidPrefix.toBytes < b.guidPrefix.toBytes
  else a.entity.toBytes < b.entity.toBytes

def zeroGUID : GUID := ⟨FixedBytes.copy 12 [], FixedBytes.copy 4 []⟩

structure OwnershipState where
  strengths : Registry (Prod.fst : GUID × Int32 → GUID)
  active : GUID

namespace OwnershipState

def new : OwnershipState := ⟨Registry.empty, zeroGUID⟩

def recompute (strengths : Registry (Prod.fst : GUID × Int32 → GUID)) : GUID :=
  let best := strengths.items.foldl (fun (best : Option (GUID × Int32)) (x : GUID × Int32) =>
    match best with
    | none => some x
    | some (g, s) => if x.2 > s ∨ (x.2 = s ∧ guidLess x.1 g) then some x else best) none
  (best.map Prod.fst).getD zeroGUID

def register (o : OwnershipState) (g : GUID) (strength : Int32) : OwnershipState :=
  ⟨o.strengths.insert (g, strength), recompute (o.strengths.insert (g, strength))⟩

def unregister (o : OwnershipState) (g : GUID) : OwnershipState :=
  ⟨o.strengths.erase g, recompute (o.strengths.erase g)⟩

def allows (o : OwnershipState) (g : GUID) : Bool :=
  if o.strengths.items.isEmpty then true else g = o.active

end OwnershipState

/-! ## QoS and samples -/

inductive Reliability where
  | bestEffort
  | reliable
  deriving DecidableEq

inductive Durability where
  | volatile
  | transientLocal
  deriving DecidableEq

inductive LivelinessKind where
  | automatic
  | manualByTopic
  deriving DecidableEq

inductive Ownership where
  | shared
  | exclusive
  deriving DecidableEq

inductive BackPressure where
  | dropNewest
  | dropOldest
  | block
  deriving DecidableEq

structure QoS where
  reliability : Reliability
  durability : Durability
  maxSampleSize : Int
  liveliness : LivelinessKind
  livelinessLeaseDuration : Int
  ownership : Ownership
  ownershipStrength : Int32
  partition : List Str
  minSeparation : Int
  transportPriority : Int

def defaultQoS : QoS :=
  { reliability := .bestEffort, durability := .volatile, maxSampleSize := 0,
    liveliness := .automatic, livelinessLeaseDuration := 0, ownership := .shared,
    ownershipStrength := 0, partition := [], minSeparation := 0, transportPriority := 0 }

structure Sample where
  topic : Str
  payload : Bytes
  timestamp : Int
  sequenceNumber : UInt64
  writerGUID : GUID
  deriving DecidableEq

/-- The options of a subscriber. `livelinessLostCallback` tells whether there is such a callback. -/
structure SubscriberConfig where
  filter : Option (Sample → Bool)
  channelDepth : Int
  backPressure : BackPressure
  livelinessLostCallback : Bool

def SubscriberConfig.ofDefaults : SubscriberConfig :=
  { filter := none, channelDepth := 0, backPressure := .dropNewest, livelinessLostCallback := false }

def SubscriberConfig.withLivelinessLost (c : SubscriberConfig) : SubscriberConfig :=
  { c with livelinessLostCallback := true }

def SubscriberConfig.chanDepth (c : SubscriberConfig) (defaultDepth : Nat) : Nat :=
  if 0 < c.channelDepth then c.channelDepth.toNat else defaultDepth

theorem SubscriberConfig.chanDepth_pos (c : SubscriberConfig) {d : Nat} (hd : 0 < d) :
    0 < c.chanDepth d := by
  unfold chanDepth
  split_ifs with h
  · omega
  · exact hd

theorem SubscriberConfig.chanDepth_64_pos (c : SubscriberConfig) : 0 < c.chanDepth 64 :=
  c.chanDepth_pos (by decide)

structure ContentFilterSpec where
  expr : Bytes → Bool
  text : Str
  params : List Str

def evalContentFilter (cf : Option ContentFilterSpec) (payload : Bytes) : Bool :=
  match cf with
  | none => true
  | some c => c.expr payload

/-! ## Locators -/

structure Locator where
  kind : Int32
  port : UInt32
  address : FixedBytes 16
  deriving DecidableEq

def locatorKindInvalid : Int32 := -1
def locatorKindUDPv4 : Int32 := 1
def locatorKindUDPv6 : Int32 := 2

def zeroLocator : Locator := ⟨0, 0, FixedBytes.copy 16 []⟩

structure UDPAddr where
  ip : Bytes
  port : Nat
  deriving DecidableEq

def Locator.udpAddr (l : Locator) : Option UDPAddr :=
  if l.kind = locatorKindUDPv4 then some ⟨slice l.address.toBytes 12 16, l.port.toNat⟩
  else if l.kind = locatorKindUDPv6 then some ⟨l.address.toBytes, l.port.toNat⟩
  else none

/-- The IPv4 form of an address: four bytes, or sixteen that embed them. -/
def to4 (ip : Bytes) : Option Bytes :=
  if ip.length = 4 then some ip
  else if ip.length = 16 ∧ slice ip 0 12 = List.replicate 10 0 ++ [0xFF, 0xFF] then
    some (slice ip 12 16)
  else none

def ipv4zero : Bytes := [0, 0, 0, 0]

def locatorFromUDP (ip : Bytes) (port : Nat) : Locator :=
  if ip.length = 16 ∧ to4 ip = none then
    ⟨locatorKindUDPv6, UInt32.ofNat port, FixedBytes.copy 16 ip⟩
  else
    ⟨locatorKindUDPv4, UInt32.ofNat port,
      FixedBytes.copy 16 (List.replicate 12 0 ++ (to4 ip).getD ipv4zero)⟩

def marshalLocator (l : Locator) : Bytes :=
  u32 l.kind.toUInt32 ++ (u32 l.port ++ l.address.toBytes)

def unmarshalLocator (b : Bytes) : Option Locator :=
  if b.length < 24 then none
  else some ⟨(u32At b 0).toInt32, u32At b 4, FixedBytes.copy 16 (slice b 8 24)⟩

/-- A locator without an address gets the IPv4 address the message came from. -/
def Locator.fillIn (l : Locator) (src : Option UDPAddr) : Locator :=
  if l.address = FixedBytes.copy 16 [] then
    match src.bind fun a => to4 a.ip with
    | none => l
    | some ip4 => { l with address := FixedBytes.copy 16 (List.replicate 12 0 ++ ip4) }
  else l

def metaMulticastAddr (domain : Nat) : UDPAddr := ⟨[239, 255, 0, 1], 7400 + 250 * domain⟩

def userMulticastAddr (domain : Nat) : UDPAddr := ⟨[239, 255, 0, 2], 7400 + 250 * domain + 1⟩

end GoDDS
