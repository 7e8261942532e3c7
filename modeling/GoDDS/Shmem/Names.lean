import GoDDS.Lib.FilePath
import GoDDS.Rtps.Local

/-!
# Names on disk

`shmem.go` and `persist.go` keep the samples of a topic in a file named after it, with underscores
for slashes, backslashes and, for the history, colons. The domain is no part of the name.
-/

namespace GoDDS.Shmem

open ByteCodec Go Go.FilePath List Participant

/-! ## Sanitised topics -/

def underscore : UInt8 := 0x5F

/-- Put an underscore in the place of some bytes (`strings.NewReplacer`). -/
def sanitise (old : List UInt8) (topic : Str) : Str :=
  topic.map fun c => if c ∈ old then underscore else c

def Alike (old : List UInt8) (a b : UInt8) : Prop :=
  a = b ∨ (a ∈ old ∨ a = underscore) ∧ (b ∈ old ∨ b = underscore)

theorem sanitise_byte_eq_iff (old : List UInt8) (a b : UInt8) :
    (if a ∈ old then underscore else a) = (if b ∈ old then underscore else b) ↔ Alike old a b := by
  unfold Alike
  by_cases hab : a = b
  · simp [hab]
  · by_cases ha : a ∈ old <;> by_cases hb : b ∈ old <;> simp [ha, hb, hab, eq_comm]
    -- neither byte is replaced: only one of them can be an underscore
    rintro rfl rfl
    exact hab rfl

theorem sanitise_eq_iff (old : List UInt8) (t t' : Str) :
    sanitise old t = sanitise old t' ↔ List.Forall₂ (Alike old) t t' := by
  unfold sanitise
  induction t generalizing t' with
  | nil => cases t' <;> simp
  | cons c t ih =>
    cases t' with
    | nil => simp
    | cons c' t' =>
      rw [map_cons, map_cons, List.cons.injEq, sanitise_byte_eq_iff, ih, forall₂_cons]

theorem not_mem_sanitise {old : List UInt8} {c : UInt8} (hc : c ∈ old) (hu : c ≠ underscore)
    (topic : Str) : c ∉ sanitise old topic := by
  intro h
  obtain ⟨x, -, hx⟩ := List.mem_map.1 h
  by_cases hold : x ∈ old
  · rw [if_pos hold] at hx
    exact hu hx.symm
  · rw [if_neg hold] at hx
    exact hold (hx ▸ hc)

abbrev Disk := Table Str Bytes

/-- A payload with its length before it, as both writers write it. -/
def framed (payload : Bytes) : Bytes := u32 (UInt32.ofNat payload.length) ++ payload

/-- What is read from one path does not show what is written to the other. -/
def Isolated (read : Bytes → Option Bytes) (path path' : Str) : Prop :=
  ∀ (disk : Disk) payload, (disk.set path (framed payload) path').bind read = (disk path').bind read

theorem isolated_iff {read : Bytes → Option Bytes} (hread : read (framed []) ≠ none)
    {path path' : Str} : Isolated read path path' ↔ path ≠ path' := by
  constructor
  · rintro h rfl
    have hempty := h Table.empty []
    rw [Table.set_self] at hempty
    exact hread hempty
  · intro hne disk payload
    rw [Table.set_ne _ _ hne.symm]

/-! ## Shared memory -/

def shmDir : Str := str "/tmp/godds-shmem"

def maxPayload : Nat := 16 * 1024 * 1024

def shmSafe (topic : Str) : Str := sanitise [0x2F, 0x5C] topic

def shmTopicDir (topic : Str) : Str := join [shmDir, shmSafe topic]

def shmDataPath (topic : Str) : Str := join [shmTopicDir topic, str "data.bin"]

def shmSocketPath (topic : Str) : Str := join [shmTopicDir topic, str "notify.sock"]

/-- `readData`, once the file is open and if nothing is written meanwhile. -/
def readFrame (file : Bytes) : Option Bytes :=
  if file.length < 4 then none
  else if maxPayload < (u32At file 0).toNat then none
  else if file.length < 4 + (u32At file 0).toNat then none
  else some (slice file 4 (4 + (u32At file 0).toNat))

theorem separator_not_mem_shmSafe (topic : Str) : separator ∉ shmSafe topic :=
  not_mem_sanitise (by decide) (by decide) topic

variable {name topic : Str}

theorem eq_of_alike {old : List UInt8} (hname : ∀ c ∈ name, c ∉ old ∧ c ≠ underscore)
    (h : List.Forall₂ (Alike old) topic name) : topic = name := by
  induction h with
  | nil => rfl
  | @cons a b _ _ hab _ ih =>
    obtain ⟨⟨hb, hu⟩, hrest⟩ := forall_mem_cons.1 hname
    rcases hab with rfl | ⟨-, hb' | hb'⟩
    · rw [ih hrest]
    · exact absurd hb' hb
    · exact absurd hb' hu

theorem shmSafe_eq_iff (hname : ∀ c ∈ name, c ∉ [0x2F, 0x5C] ∧ c ≠ underscore) :
    shmSafe topic = name ↔ topic = name := by
  have hself : shmSafe name = name :=
    (map_congr_left fun c hc => if_neg (hname c hc).1).trans (List.map_id name)
  refine ⟨fun h => ?_, fun h => by rw [h, hself]⟩
  rw [← hself] at h
  exact eq_of_alike hname ((sanitise_eq_iff _ topic name).1 h)

theorem dropped_shmSafe_iff (topic : Str) : Dropped (shmSafe topic) ↔ Dropped topic :=
  or_congr (shmSafe_eq_iff (by simp)) (shmSafe_eq_iff (by decide +kernel))

def dirElements (topic : Str) : List Str :=
  if Dropped (shmSafe topic) then [str "tmp", str "godds-shmem"]
  else if shmSafe topic = dotDot then [str "tmp"]
  else [str "tmp", str "godds-shmem", shmSafe topic]

theorem plain_dirElements : ∀ e ∈ dirElements topic, Plain e := by
  have htmp : Plain (str "tmp") := by decide
  have hdir : Plain (str "godds-shmem") := by decide
  unfold dirElements
  split_ifs with h h'
  · simp [htmp, hdir]
  · simp [htmp]
  · have hsafe : Plain (shmSafe topic) := ⟨h, h', separator_not_mem_shmSafe topic⟩
    simp [htmp, hdir, hsafe]

theorem shmTopicDir_eq : shmTopicDir topic = render true (dirElements topic) := by
  have hne : shmDir ≠ [] := by decide
  have helements : elements shmDir = [str "tmp", str "godds-shmem"] := by decide +kernel
  have hroot : rooted shmDir = true := by decide
  unfold shmTopicDir
  rw [join_pair hne, clean, rooted_append hne,
    elements_append hne (separator_not_mem_shmSafe topic), helements, hroot]
  congr 1
  unfold dirElements cleanStep
  by_cases h : Dropped (shmSafe topic)
  · rw [if_pos h, if_pos h]
    rfl
  · rw [if_neg h, if_neg h]
    by_cases h' : shmSafe topic = dotDot
    · rw [if_pos h', if_pos h']
      rfl
    · rw [if_neg h', if_neg h']
      rfl

theorem join_shmTopicDir (hname : Plain name) :
    join [shmTopicDir topic, name] = render true (dirElements topic ++ [name]) := by
  have hne : render true (dirElements topic) ≠ [] := by simp [render]
  have hroot : rooted (render true (dirElements topic)) = true := rfl
  rw [shmTopicDir_eq, join_plain hne hname, hroot, elements_render (plain_dirElements)]

/-- One directory: the topics differ in slashes, backslashes and underscores only, or both are `.`
or empty. -/
def ShmAlike (t t' : Str) : Prop :=
  List.Forall₂ (Alike [0x2F, 0x5C]) t t' ∨ Dropped t ∧ Dropped t'

theorem dirElements_eq_iff (t t' : Str) : dirElements t = dirElements t' ↔ ShmAlike t t' := by
  unfold ShmAlike
  rw [← sanitise_eq_iff, ← dropped_shmSafe_iff t, ← dropped_shmSafe_iff t']
  change _ ↔ shmSafe t = shmSafe t' ∨ _
  have hdotDot : ¬ Dropped dotDot := by decide
  unfold dirElements
  by_cases hsame : shmSafe t = shmSafe t'
  · simp [hsame]
  by_cases h : Dropped (shmSafe t) <;> by_cases h' : Dropped (shmSafe t') <;>
    by_cases h₁ : shmSafe t = dotDot <;> by_cases h₂ : shmSafe t' = dotDot <;> simp_all

theorem join_shmTopicDir_eq_iff (t t' : Str) (hname : Plain name) :
    join [shmTopicDir t, name] = join [shmTopicDir t', name] ↔ ShmAlike t t' := by
  rw [join_shmTopicDir hname, join_shmTopicDir hname, ← dirElements_eq_iff]
  refine ⟨fun h => ?_, fun h => by rw [h]⟩
  have hall (t : Str) : ∀ e ∈ dirElements t ++ [name], separator ∉ e := by
    intro e he
    rcases mem_append.1 he with he | he
    · exact (plain_dirElements e he).2.2
    · exact mem_singleton.1 he ▸ hname.2.2
  exact append_cancel_right (render_injective (by simp) (by simp) (hall t) (hall t') h)

def persistPath (dir topic : Str) : Str :=
  join [dir, str "topic-" ++ Participant.persistName topic ++ str ".bin"]

/-- `persistLoad`, once the file is open: the payload is read in one go, and what is missing of it
is zero. -/
def persistRead (file : Bytes) : Option Bytes :=
  if file.length < 4 then none
  else if Participant.maxPersisted < (u32At file 0).toNat then none
  else if file.drop 4 = [] ∧ (u32At file 0).toNat ≠ 0 then none
  else
    some ((file.drop 4).take (u32At file 0).toNat ++
      List.replicate ((u32At file 0).toNat - (file.drop 4).length) 0)

theorem persistName_eq : persistName topic = sanitise [0x2F, 0x5C, 0x3A] topic := by
  unfold persistName sanitise
  simp [underscore]

theorem persistPath_eq_iff {dir : Str} (hdir : dir ≠ []) (t t' : Str) :
    persistPath dir t = persistPath dir t' ↔ List.Forall₂ (Alike [0x2F, 0x5C, 0x3A]) t t' := by
  have hplain (t : Str) : Plain (str "topic-" ++ persistName t ++ str ".bin") := by
    have hsep : separator ∉ persistName t :=
      persistName_eq ▸ not_mem_sanitise (by decide) (by decide) t
    have htopic : separator ∉ str "topic-" := by decide
    have hbin : separator ∉ str ".bin" := by decide
    refine ⟨by simp [Dropped, str, dot], by simp [str, dotDot], ?_⟩
    simp [hsep, htopic, hbin]
  unfold persistPath
  rw [← sanitise_eq_iff, ← persistName_eq, ← persistName_eq, join_plain hdir (hplain t),
    join_plain hdir (hplain t')]
  refine ⟨fun h => ?_, fun h => by rw [h]⟩
  have := render_concat_injective h
  exact append_cancel_left (append_cancel_right this)

/-! ## The result -/

structure Address where
  domain : Int
  topic : Str
  deriving DecidableEq

/-- The two have different files and sockets, and what is written for the first is not read for the
second. -/
def ShmIsolated (a b : Address) : Prop :=
  shmDataPath a.topic ≠ shmDataPath b.topic ∧ shmSocketPath a.topic ≠ shmSocketPath b.topic ∧
    Isolated readFrame (shmDataPath a.topic) (shmDataPath b.topic)

/-- Different files in every directory, and what is written for the first is not read for the
second. -/
def PersistIsolated (t t' : Str) : Prop :=
  ∀ dir, dir ≠ [] → persistPath dir t ≠ persistPath dir t' ∧
    Isolated persistRead (persistPath dir t) (persistPath dir t')

/-- Two different pairs of a domain and a topic have different files and sockets, and a sample
written for one is not read for the other, exactly if the topics differ in more than such characters
(`ShmAlike`); and the same for the history of two topics. -/
theorem disk_names_isolated_iff (a b : Address) :
    ((a ≠ b → ShmIsolated a b) ∧ (a.topic ≠ b.topic → PersistIsolated a.topic b.topic)) ↔
    (a = b ∨ ¬ ShmAlike a.topic b.topic) ∧
      (a.topic = b.topic ∨ ¬ List.Forall₂ (Alike [0x2F, 0x5C, 0x3A]) a.topic b.topic) := by
  have hdata : shmDataPath a.topic = shmDataPath b.topic ↔ ShmAlike a.topic b.topic :=
    join_shmTopicDir_eq_iff _ _ (by decide)
  have hsocket : shmSocketPath a.topic = shmSocketPath b.topic ↔ ShmAlike a.topic b.topic :=
    join_shmTopicDir_eq_iff _ _ (by decide)
  have hread : readFrame (framed []) ≠ none := by decide
  have hload : persistRead (framed []) ≠ none := by decide
  refine and_congr ?_ ?_
  · rw [imp_iff_not_or, not_ne_iff]
    refine or_congr_right ?_
    unfold ShmIsolated
    rw [isolated_iff hread, ne_eq, ne_eq, hdata, hsocket, and_self, and_self]
  · rw [imp_iff_not_or, not_ne_iff]
    refine or_congr_right ⟨fun h => ?_, fun h dir hdir => ?_⟩
    · have hroot : dot ≠ [] := by decide
      exact mt (persistPath_eq_iff hroot _ _).2 (h dot hroot).1
    · have hne := mt (persistPath_eq_iff hdir a.topic b.topic).1 h
      exact ⟨hne, (isolated_iff hload).2 hne⟩

/-- `a/b` and `a_b` share their files and socket, and a sample of one is read for the other; so do
domains 0 and 1. -/
theorem slash_and_underscore_share_files :
    let a : Address := ⟨0, str "a/b"⟩
    let b : Address := ⟨0, str "a_b"⟩
    let disk : Disk := Table.empty
    let dir := str "/var/history"
    a ≠ b ∧ shmDataPath a.topic = shmDataPath b.topic ∧
      shmSocketPath a.topic = shmSocketPath b.topic ∧
      ((disk.set (shmDataPath a.topic) (framed [7])) (shmDataPath b.topic)).bind readFrame =
        some [7] ∧
      a.topic ≠ b.topic ∧ persistPath dir a.topic = persistPath dir b.topic ∧
      ((disk.set (persistPath dir a.topic) (framed [7])) (persistPath dir b.topic)).bind
        persistRead = some [7] ∧
      (⟨0, b.topic⟩ : Address) ≠ ⟨1, b.topic⟩ ∧
      ¬ ShmIsolated ⟨0, b.topic⟩ ⟨1, b.topic⟩ := by
  intro a b disk dir
  refine ⟨by decide +kernel, by decide +kernel, by decide +kernel, by decide +kernel,
    by decide +kernel, by decide +kernel, by decide +kernel, by decide +kernel, fun h => h.1 rfl⟩

end GoDDS.Shmem
