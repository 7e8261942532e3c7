import GoDDS.Lib.Bytes

/-!
# Publishing over REST

`handlePublish` of `rest.go` reads the body through a reader that ends after 16 MiB, and its end is
taken for the end of the body: a longer body is cut, published and answered with 204.
-/

namespace GoDDS.Bridge.Rest

open ByteCodec List

/-- The bytes of a body; reading it may fail after some of them. -/
structure Body where
  bytes : Bytes
  failsAt : Option Nat

def maxBody : Nat := 16 * 1024 * 1024

/-- `io.ReadAll(io.LimitReader(r.Body, maxBody))`; what comes after the limit is not read. -/
def readLimited (body : Body) : Option Bytes :=
  if body.failsAt.any (· < maxBody) then none else some (body.bytes.take maxBody)

inductive Status where
  | noContent
  | badRequest
  | internalServerError
  deriving DecidableEq

/-- The answer and the samples written; whether there is a publisher and whether its write succeeds
are given. -/
def handlePublish (created written : Bool) (body : Body) : Status × List Bytes :=
  match readLimited body with
  | none => (.badRequest, [])
  | some payload =>
    if !created then (.internalServerError, [])
    else if !written then (.internalServerError, [])
    else (.noContent, [payload])

/-- What a publisher over REST counts on. -/
def Faithful (body : Body) (r : Status × List Bytes) : Prop :=
  (r.1 = .noContent → r.2 = [body.bytes]) ∧ (maxBody < body.bytes.length → r.1 ≠ .noContent)

theorem handlePublish_noContent {created written : Bool} {body : Body}
    (h : (handlePublish created written body).1 = .noContent) :
    (handlePublish created written body).2 = [body.bytes.take maxBody] := by
  unfold handlePublish readLimited at h ⊢
  split_ifs at h ⊢
  simp_all

theorem handlePublish_noContent_iff {created written : Bool} {body : Body} :
    (handlePublish created written body).1 = .noContent ↔
      body.failsAt.any (· < maxBody) = false ∧ created = true ∧ written = true := by
  unfold handlePublish readLimited
  cases body.failsAt.any (· < maxBody) <;> cases created <;> cases written <;> simp

/-- A request is published whole or not answered with 204, and refused if it is too long, exactly if
the body is within the limit, or reading, creating the publisher or writing fails. -/
theorem publish_faithful_iff (created written : Bool) (body : Body) :
    let r := handlePublish created written body
    (r.1 = .noContent → r.2.length = 1) ∧
      (Faithful body r ↔ body.bytes.length ≤ maxBody ∨ body.failsAt.any (· < maxBody) = true ∨
        created = false ∨ written = false) := by
  intro r
  have hanswer : r.1 ≠ .noContent ↔
      body.failsAt.any (· < maxBody) = true ∨ created = false ∨ written = false := by
    rw [ne_eq, handlePublish_noContent_iff]
    simp only [not_and_or, Bool.not_eq_false, Bool.not_eq_true]
  rw [← hanswer]
  by_cases h : r.1 = .noContent
  · have hwritten : r.2 = [body.bytes.take maxBody] := handlePublish_noContent h
    refine ⟨fun _ => by rw [hwritten]; rfl, fun hf => .inl ?_, fun hle => ?_⟩
    · exact Nat.not_lt.1 fun hlong => hf.2 hlong h
    · have hle := hle.resolve_right (not_not.2 h)
      rw [Faithful, hwritten, take_of_length_le hle]
      exact ⟨fun _ => rfl, fun hlong => absurd hle (Nat.not_le.2 hlong)⟩
  · simp [Faithful, h]

/-- A body of one byte more than the limit is cut. -/
theorem long_body_cut :
    let body : Body := ⟨replicate (maxBody + 1) 0, none⟩
    (handlePublish true true body).1 = .noContent ∧
      (handlePublish true true body).2 = [replicate maxBody 0] := by
  refine ⟨rfl, (handlePublish_noContent rfl).trans ?_⟩
  rw [take_replicate, Nat.min_eq_left (Nat.le_succ _)]

end GoDDS.Bridge.Rest
