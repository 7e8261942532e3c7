import GoDDS.Rtps.Message

/-!
# What the bytes of a message say
-/

namespace GoDDS

open ByteCodec Go List

/-! ## Submessages -/

def Submessage.little (s : Submessage) : Bool := s.flags &&& flagEndianness ≠ 0

/-- A submessage on the wire, its length in the byte order its flags declare. -/
def Submessage.encode (s : Submessage) : Bytes :=
  s.id :: s.flags :: ((if s.little then le 2 s.body.length else be 2 s.body.length) ++ s.body)

/-- The walk over `b` comes to `r`. -/
inductive Reaches : Bytes → Bytes → Prop
  | here (b : Bytes) : Reaches b b
  | next {id flags l₀ l₁ : UInt8} {rest r : Bytes}
      (hfits : octetsToNextHeader flags l₀ l₁ ≤ rest.length)
      (h : Reaches (rest.drop (octetsToNextHeader flags l₀ l₁)) r) :
      Reaches (id :: flags :: l₀ :: l₁ :: rest) r

/-- A header that announces more than is left. -/
def Overruns (b : Bytes) : Prop :=
  ∃ id flags l₀ l₁ rest, Reaches b (id :: flags :: l₀ :: l₁ :: rest) ∧
    rest.length < octetsToNextHeader flags l₀ l₁

theorem octetsToNextHeader_be {flags : UInt8} {n : Nat} (hflags : ¬ flags &&& flagEndianness ≠ 0)
    (hn : n < 65536) : octetsToNextHeader flags (UInt8.ofNat (n / 256)) (UInt8.ofNat n) = n := by
  rw [octetsToNextHeader, if_neg hflags, u16BEAt]
  change (UInt16.ofNat (beVal (slice (be 2 n) 0 2))).toNat = n
  rw [slice_all (length_be 2 n), beVal, be, reverse_reverse, leVal_le_of_lt hn,
    UInt16.toNat_ofNat_of_lt' hn]

theorem parseSubmessages_encode {s : Submessage} (h : s.body.length < 65536) (rest : Bytes) :
    parseSubmessages (s.encode ++ rest) =
      ([s].filter Submessage.little ++ (parseSubmessages rest).1, (parseSubmessages rest).2) := by
  obtain ⟨id, flags, body⟩ := s
  have hle : ¬ body.length > (body ++ rest).length := by simp
  by_cases hlittle : flags &&& flagEndianness ≠ 0
  · have hencode : (Submessage.mk id flags body).encode ++ rest = id :: flags ::
        UInt8.ofNat body.length :: UInt8.ofNat (body.length / 256) :: (body ++ rest) := by
      simp [Submessage.encode, Submessage.little, hlittle, le]
    rw [hencode, parseSubmessages_cons, octetsToNextHeader_le hlittle h]
    simp [Submessage.little, hlittle]
  · have hencode : (Submessage.mk id flags body).encode ++ rest = id :: flags ::
        UInt8.ofNat (body.length / 256) :: UInt8.ofNat body.length :: (body ++ rest) := by
      simp [Submessage.encode, Submessage.little, hlittle, be, le]
    rw [hencode, parseSubmessages_cons, octetsToNextHeader_be hlittle h]
    simp [Submessage.little, hlittle]

theorem parseSubmessages_flatMap {subs : List Submessage} (h : ∀ s ∈ subs, s.body.length < 65536) :
    parseSubmessages (subs.flatMap Submessage.encode) = (subs.filter Submessage.little, none) := by
  induction subs with
  | nil => rfl
  | cons s subs ih =>
    rw [flatMap_cons, parseSubmessages_encode (h s mem_cons_self),
      ih fun s' hs' => h s' (mem_cons_of_mem s hs'), ← filter_append, singleton_append]

theorem not_overruns_of_short {b : Bytes} (h : b.length < 4) : ¬ Overruns b := by
  rintro ⟨id, flags, l₀, l₁, rest, hreach, -⟩
  cases hreach <;> simp at h <;> omega

theorem overruns_cons {id flags l₀ l₁ : UInt8} {rest : Bytes} :
    Overruns (id :: flags :: l₀ :: l₁ :: rest) ↔ rest.length < octetsToNextHeader flags l₀ l₁ ∨
      octetsToNextHeader flags l₀ l₁ ≤ rest.length ∧
        Overruns (rest.drop (octetsToNextHeader flags l₀ l₁)) := by
  constructor
  · rintro ⟨id', flags', l₀', l₁', rest', hreach, hlong⟩
    cases hreach with
    | here => exact .inl hlong
    | next hfits h => exact .inr ⟨hfits, _, _, _, _, _, h, hlong⟩
  · rintro (hlong | ⟨hfits, _, _, _, _, _, h, hlong⟩)
    · exact ⟨_, _, _, _, _, .here _, hlong⟩
    · exact ⟨_, _, _, _, _, .next hfits h, hlong⟩

theorem parseSubmessages_bytes (b : Bytes) : (∀ s ∈ (parseSubmessages b).1, s.body <:+: b) ∧
      ((parseSubmessages b).2 ≠ none ↔ Overruns b) := by
  induction hn : b.length using Nat.strong_induction_on generalizing b with
  | _ n ih =>
    match b with
    | [] | [_] | [_, _] | [_, _, _] =>
      exact ⟨by simp [parseSubmessages, parseSubmessagesFuel],
        iff_of_false (by simp [parseSubmessages, parseSubmessagesFuel])
          (not_overruns_of_short (by simp))⟩
    | id :: flags :: l₀ :: l₁ :: rest =>
      rw [parseSubmessages_cons, overruns_cons]
      have hhead : rest <:+: id :: flags :: l₀ :: l₁ :: rest := ⟨[id, flags, l₀, l₁], [], by simp⟩
      generalize octetsToNextHeader flags l₀ l₁ = length
      by_cases hlong : rest.length < length
      · rw [if_pos hlong]
        exact ⟨by simp, iff_of_true (by simp) (.inl hlong)⟩
      · obtain ⟨hbodies, herror⟩ := ih (rest.drop length).length
          (by simp only [← hn, length_drop, length_cons]; omega) _ rfl
        have htail : ∀ s ∈ (parseSubmessages (rest.drop length)).1,
            s.body <:+: id :: flags :: l₀ :: l₁ :: rest := fun s hs =>
          (hbodies s hs).trans ((drop_suffix _ _).isInfix.trans hhead)
        rw [if_neg hlong, or_iff_right hlong, and_iff_right (Nat.not_lt.1 hlong), ← herror]
        split_ifs
        · refine ⟨fun s hs => ?_, Iff.rfl⟩
          rcases mem_cons.1 hs with rfl | hs
          · exact (List.take_prefix _ _).isInfix.trans hhead
          · exact htail s hs
        · exact ⟨htail, Iff.rfl⟩

/-- The walk over a message hands on the little-endian submessages of any list, whatever byte order
their neighbours declare, and on any bytes it ends with an error exactly if it comes to a header
that announces more than is left. -/
theorem parseSubmessages_exact : (∀ subs : List Submessage, (∀ s ∈ subs, s.body.length < 65536) →
      parseSubmessages (subs.flatMap Submessage.encode) = (subs.filter Submessage.little, none)) ∧
    ∀ b, (∀ s ∈ (parseSubmessages b).1, s.body <:+: b) ∧
      ((parseSubmessages b).2 ≠ none ↔ Overruns b) :=
  ⟨fun _ => parseSubmessages_flatMap, parseSubmessages_bytes⟩

theorem parseSubmessages_mixed :
    parseSubmessages ([⟨1, 0, [7]⟩, ⟨2, 1, [8, 9]⟩].flatMap Submessage.encode) =
      ([⟨2, 1, [8, 9]⟩], none) :=
  parseSubmessages_exact.1 _ (by simp)

/-! ## ACKNACK -/

/-- The bit for the number `n` past the base: words of 32 bits, most significant bit first. -/
def wireDelta (body : Bytes) (n : Nat) : Bool :=
  (u32At body (20 + n / 32 * 4)).toNat.testBit (31 - n % 32)

theorem testBit_reverse32 (x : UInt32) {n : Nat} (hn : n < 32) :
    (reverse32 x).toNat.testBit n = x.toNat.testBit (31 - n) := by
  change (x.toBitVec.reverse).toNat.testBit n = x.toBitVec.toNat.testBit (31 - n)
  rw [BitVec.testBit_toNat, BitVec.testBit_toNat, BitVec.getLsbD_reverse, BitVec.getMsbD]
  simp [hn]

theorem parseAckNack_bitmap {body : Bytes} {an : AckNack} (h : parseAckNack body = some an) {n : Nat}
    (hn : n < 32) : an.bitmap.toNat.testBit n =
      (decide (0 < (u32At body 16).toNat) && wireDelta body n) := by
  unfold parseAckNack at h
  dsimp only at h
  split at h
  · cases h
  split at h
  · cases h
  rename_i hmany
  split at h
  · cases h
  cases h
  have hwords : ((u32At body 16 + 31) / 32 : UInt32) > 0 ↔ 0 < (u32At body 16).toNat := by
    rw [gt_iff_lt, UInt32.lt_iff_toNat_lt] at hmany ⊢
    rw [UInt32.toNat_div, UInt32.toNat_add]
    change ¬ 256 < _ at hmany
    change 0 < ((u32At body 16).toNat + 31) % 2 ^ 32 / 32 ↔ _
    omega
  have hdelta : wireDelta body n = (u32At body 20).toNat.testBit (31 - n) := by
    rw [wireDelta, Nat.div_eq_of_lt hn, Nat.mod_eq_of_lt hn]
  by_cases hpos : 0 < (u32At body 16).toNat
  · rw [if_pos (hwords.2 hpos), testBit_reverse32 _ hn, hdelta, decide_eq_true hpos, Bool.true_and]
  · rw [if_neg (mt hwords.1 hpos), decide_eq_false hpos, Bool.false_and]
    exact Nat.zero_testBit n

/-- The bitmap of an ACKNACK is the wire's set of numbers exactly if the wire sets no bit past the
number of bits it declares; the parser does not mask them. -/
theorem ackNack_bitmap_iff (body : Bytes) (an : AckNack) : (parseAckNack body = some an →
      ((∀ n < 32, an.bitmap.toNat.testBit n = true ↔
        n < (u32At body 16).toNat ∧ wireDelta body n = true) ↔
      ∀ n < 32, 0 < (u32At body 16).toNat → (u32At body 16).toNat ≤ n → wireDelta body n = false)) ∧
    parseAckNack (ackNackBody an) = some an := by
  refine ⟨fun h => forall₂_congr fun n hn => ?_, parseAckNack_ackNackBody an⟩
  rw [parseAckNack_bitmap h hn]
  cases wireDelta body n <;> simp
  omega

/-- One bit is declared, and two are set. -/
def strayBit : Bytes := List.replicate 16 0 ++ (u32 1 ++ (u32 0xC0000000 ++ u32 0))

theorem ackNack_bitmap_one :
    let an : AckNack := ⟨entityIdUnknown, entityIdUnknown, u64ToSN 7, 1, 0⟩
    ∀ n < 32, an.bitmap.toNat.testBit n = true ↔
      n < (u32At (ackNackBody an) 16).toNat ∧ wireDelta (ackNackBody an) n = true := by
  intro an
  have h := ackNack_bitmap_iff (ackNackBody an) an
  exact (h.1 h.2).2 (by decide +kernel)

/-- A bit beyond the length is kept. -/
theorem stray_bit_kept : ∃ an, parseAckNack strayBit = some an ∧
    an.bitmap.toNat.testBit 1 = true ∧ (u32At strayBit 16).toNat = 1 := by
  refine ⟨_, rfl, ?_, ?_⟩ <;> decide +kernel

theorem ntpEraDisambiguate_eq {sec ref : Int} {secs : UInt32} (h : (sec - unix ref).natAbs < 2 ^ 31)
    (hsecs : secs.toNat = (sec + ntpDelta) % ntpEra) (ns : Int) :
    ntpEraDisambiguate secs ns ref = ofUnix sec ns := by
  unfold ntpEraDisambiguate
  simp only [ntpEra] at *
  congr 1
  split_ifs <;> omega

/-- A timestamp is read back by a receiver whose clock is less than half an era away, up to one
nanosecond. -/
theorem info_ts_round_trip {t ref : Int} (h : (unix t - unix ref).natAbs < 2 ^ 31) :
    parseSubmessages (marshalInfoTS t) = ([⟨submsgINFO_TS, flagEndianness, infoTSBody t⟩], none) ∧
    ∃ t', parseInfoTS ref (infoTSBody t) = some t' ∧ unix t' = unix t ∧
      nanosecond t - 1 ≤ nanosecond t' ∧ nanosecond t' ≤ nanosecond t := by
  have hframe := parseSubmessages_frame submsgINFO_TS flagEndianness (infoTSBody t) [] (by decide)
    (by rw [length_infoTSBody]; decide)
  rw [append_nil, parseSubmessages_nil] at hframe
  have hsecs : (u32At (infoTSBody t) 0).toNat = (unix t + ntpDelta) % ntpEra := by
    rw [infoTSBody, u32At_here, UInt32.toNat_ofNat', ntpEra]
    omega
  have hfrac : (u32At (infoTSBody t) 4).toNat = nanosecond t * 2 ^ 32 / 1000000000 := by
    rw [infoTSBody, u32At_skip (by simp), length_u32, Nat.sub_self, u32At_here_end,
      UInt32.toNat_ofNat', nanosecond, second]
    omega
  refine ⟨hframe, _, if_neg (by simp), ?_⟩
  rw [ntpEraDisambiguate_eq h hsecs]
  have hns : 0 ≤ nanosecond t ∧ nanosecond t < 1000000000 := by
    unfold nanosecond second
    omega
  -- two truncating conversions lose less than two nanoseconds
  generalize hn : (u32At (infoTSBody t) 4).toNat * 1000000000 / 2 ^ 32 = ns
  have hlow : nanosecond t - 1 ≤ ns := by omega
  have hhigh : (ns : Int) ≤ nanosecond t := by omega
  simp only [ofUnix, unix, nanosecond, second] at hlow hhigh hns ⊢
  omega

theorem info_ts_round_trip_2100 : ∃ t', parseInfoTS (4102444800 * second)
    (infoTSBody (4102444801 * second + 5)) = some t' ∧ unix t' = 4102444801 := by
  have hnear : (unix (4102444801 * second + 5) - unix (4102444800 * second)).natAbs < 2 ^ 31 := by
    decide
  obtain ⟨t', ht, hsec, -⟩ := (info_ts_round_trip hnear).2
  exact ⟨t', ht, hsec⟩

end GoDDS
