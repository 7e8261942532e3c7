import GoDDS.Lib.Go
import GoDDS.Lib.Registry
import GoDDS.Lib.Run

/-!
# The replay guard
-/

namespace GoDDS.Security

open Go List

/-! ## The guard -/

/-- The replay guard. The constructor never makes one with an empty window. -/
structure ReplayGuard where
  window : Int
  window_pos : 0 < window
  seen : Table UInt64 Int

inductive Verdict where
  | accepted
  | errReplay
  deriving DecidableEq

def newReplayGuard (window : Int) : ReplayGuard :=
  if h : window ≤ 0 then ⟨30 * second, by decide, Table.empty⟩
  else ⟨window, by omega, Table.empty⟩

variable {ts w : Int} {log : List LogEntry} {g : ReplayGuard} {seq : UInt64}

namespace ReplayGuard

def purge (g : ReplayGuard) (now : Int) : ReplayGuard :=
  { g with seen := g.seen.filter fun t => !decide (t < now - g.window) }

/-- Every entry more than the window older than the timestamp of the call is dropped; then the
number is accepted and recorded unless it is still there. -/
def check (g : ReplayGuard) (seq : UInt64) (ts : Int) : ReplayGuard × Verdict :=
  match (g.purge ts).seen seq with
  | some _ => (g.purge ts, .errReplay)
  | none => ({ g.purge ts with seen := (g.purge ts).seen.set seq ts }, .accepted)

theorem purge_seen_eq_some {now t : Int} :
    (g.purge now).seen seq = some t ↔ g.seen seq = some t ∧ now ≤ t + g.window := by
  simp only [purge, Table.filter_apply, Option.filter_eq_some_iff, Bool.not_eq_true',
    decide_eq_false_iff_not]
  exact and_congr_right fun _ => by omega

@[simp] theorem check_window (g : ReplayGuard) (seq : UInt64) (ts : Int) :
    (g.check seq ts).1.window = g.window := by
  unfold check
  split <;> rfl

theorem check_errReplay_iff :
    (g.check seq ts).2 = .errReplay ↔ ∃ t, g.seen seq = some t ∧ ts ≤ t + g.window := by
  simp only [← purge_seen_eq_some]
  unfold check
  split
  · next t h => simp [h]
  · next h => simp [h]

theorem check_seen_eq_some {s : UInt64} {t : Int} : (g.check seq ts).1.seen s = some t ↔
      (g.seen s = some t ∧ ts ≤ t + g.window) ∨
        ((g.check seq ts).2 = .accepted ∧ s = seq ∧ t = ts) := by
  unfold check
  split
  · next u hu => simp [purge_seen_eq_some]
  · next hnone =>
    by_cases hs : s = seq
    · subst hs
      have hgone : ¬ (g.seen s = some t ∧ ts ≤ t + g.window) := by
        rw [← purge_seen_eq_some, hnone]
        simp
      rw [or_iff_right hgone]
      simp only [Table.set_self, Option.some.injEq, true_and]
      exact eq_comm
    · simp only [Table.set_ne _ _ hs, purge_seen_eq_some, hs, false_and, and_false, or_false]

end ReplayGuard

/-! ## Call histories -/

structure Call where
  seq : UInt64
  ts : Int
  deriving DecidableEq

structure LogEntry where
  call : Call
  verdict : Verdict
  deriving DecidableEq

def ReplayGuard.step (g : ReplayGuard) (c : Call) : ReplayGuard × List LogEntry :=
  ((g.check c.seq c.ts).1, [⟨c, (g.check c.seq c.ts).2⟩])

def ReplayGuard.checks (g : ReplayGuard) (cs : List Call) : ReplayGuard × List LogEntry :=
  Run.run ReplayGuard.step g cs

/-- The log has an accepted call for `seq` at `ts`, and no later call is out of its window. -/
def Remembers (w : Int) (log : List LogEntry) (seq : UInt64) (ts : Int) : Prop :=
  ∃ older newer, log = older ++ ⟨⟨seq, ts⟩, .accepted⟩ :: newer ∧
    ∀ e ∈ newer, e.call.ts ≤ ts + w

theorem not_remembers_nil : ¬ Remembers w [] seq ts := by
  rintro ⟨older, newer, h, -⟩
  simp at h

theorem remembers_append {log' : List LogEntry} : Remembers w (log ++ log') seq ts ↔
      (Remembers w log seq ts ∧ ∀ e ∈ log', e.call.ts ≤ ts + w) ∨ Remembers w log' seq ts := by
  constructor
  · intro h
    obtain ⟨older, newer, hlog, hnewer⟩ := h
    rcases Run.append_eq_append_cons hlog with ⟨mid, hmid, rfl⟩ | ⟨older', -, hlog'⟩
    · exact .inl ⟨⟨older, mid, hmid, fun e he => hnewer e (mem_append_left _ he)⟩,
        fun e he => hnewer e (mem_append_right _ he)⟩
    · exact .inr ⟨older', newer, hlog', hnewer⟩
  · rintro (⟨⟨older, newer, rfl, hnewer⟩, hlog'⟩ | ⟨older, newer, rfl, hnewer⟩)
    · refine ⟨older, newer ++ log', by simp, fun e he => ?_⟩
      exact (mem_append.1 he).elim (hnewer e) (hlog' e)
    · exact ⟨log ++ older, newer, by simp, hnewer⟩

theorem remembers_singleton {e : LogEntry} :
    Remembers w [e] seq ts ↔ e = ⟨⟨seq, ts⟩, .accepted⟩ := by
  constructor
  · rintro ⟨older, newer, h, -⟩
    cases older with
    | nil => exact (List.cons.inj h).1
    | cons a older => simp at h
  · rintro rfl
    exact ⟨[], [], rfl, by simp⟩

def Tracks (g : ReplayGuard) (log : List LogEntry) : Prop :=
  ∀ seq ts, g.seen seq = some ts ↔ Remembers g.window log seq ts

theorem tracks_new (w : Int) : Tracks (newReplayGuard w) [] := by
  intro seq ts
  have hempty : (newReplayGuard w).seen seq = none := by
    unfold newReplayGuard
    split <;> rfl
  simp [hempty, not_remembers_nil]

theorem tracks_check (h : Tracks g log) (c : Call) :
    Tracks (g.check c.seq c.ts).1 (log ++ [⟨c, (g.check c.seq c.ts).2⟩]) := by
  intro seq ts
  obtain ⟨cseq, cts⟩ := c
  rw [ReplayGuard.check_seen_eq_some, ReplayGuard.check_window, remembers_append,
    remembers_singleton, h seq ts]
  simp only [LogEntry.mk.injEq, Call.mk.injEq, mem_singleton, forall_eq]
  constructor
  · rintro (hold | ⟨hacc, rfl, rfl⟩)
    · exact .inl hold
    · exact .inr ⟨⟨rfl, rfl⟩, hacc⟩
  · rintro (hold | ⟨⟨rfl, rfl⟩, hacc⟩)
    · exact .inl hold
    · exact .inr ⟨hacc, rfl, rfl⟩

theorem window_checks (g : ReplayGuard) (cs : List Call) : (g.checks cs).1.window = g.window :=
  Run.run_invariant (I := fun g' : ReplayGuard => g'.window = g.window)
    (fun g' c hg' => (g'.check_window c.seq c.ts).trans hg') rfl cs

theorem tracks_checks (h : Tracks g log) (cs : List Call) :
    Tracks (g.checks cs).1 (log ++ (g.checks cs).2) :=
  Run.run_induction_always (J := fun g' _ log' => Tracks g' (log ++ log'))
    (fun g' c _ log' hg' => by
      rw [← append_assoc]
      exact tracks_check hg' c)
    (by simpa using h) cs

/-- After every run of calls the table holds exactly the remembered entries. -/
theorem tracks_run (w : Int) (cs : List Call) :
    Tracks ((newReplayGuard w).checks cs).1 ((newReplayGuard w).checks cs).2 := by
  simpa using tracks_checks (tracks_new w) cs

theorem Tracks.check_errReplay_iff (h : Tracks g log) (seq : UInt64) (ts : Int) :
    (g.check seq ts).2 = .errReplay ↔ ∃ t, Remembers g.window log seq t ∧ ts ≤ t + g.window := by
  rw [ReplayGuard.check_errReplay_iff]
  exact exists_congr fun t => and_congr_left fun _ => h seq t

/-- Of two accepted calls for a number, the second or one in between is dated past the window after
the first. -/
def Separated (w : Int) (log : List LogEntry) : Prop :=
  ∀ older mid newer s t₁ t₂,
    log = older ++ ⟨⟨s, t₁⟩, .accepted⟩ :: (mid ++ ⟨⟨s, t₂⟩, .accepted⟩ :: newer) →
      ∃ e ∈ mid ++ [⟨⟨s, t₂⟩, .accepted⟩], t₁ + w < e.call.ts

theorem separated_nil (w : Int) : Separated w [] := by
  intro older mid newer s t₁ t₂ h
  simp at h

theorem separated_check (h : Tracks g log) (hsep : Separated g.window log) (c : Call) :
    Separated g.window (log ++ [⟨c, (g.check c.seq c.ts).2⟩]) := by
  intro older mid newer s t₁ t₂ heq
  rw [← cons_append, ← append_assoc] at heq
  rcases Run.append_eq_append_cons heq with ⟨newer', hold, -⟩ | ⟨a, hlast, hnew⟩
  · rw [append_assoc, cons_append] at hold
    exact hsep older mid newer' s t₁ t₂ hold
  · -- the second call is the last one
    have ha : a = [] := by
      cases a with
      | nil => rfl
      | cons x a => simp at hnew
    subst ha
    obtain ⟨hentry, -⟩ := List.cons.inj hnew
    rw [LogEntry.mk.injEq] at hentry
    obtain ⟨rfl, hacc⟩ := hentry
    rw [append_nil] at hlast
    by_contra hnone
    have hwithin : ∀ e ∈ mid ++ [⟨⟨s, t₂⟩, .accepted⟩], e.call.ts ≤ t₁ + g.window := by
      intro e he
      by_contra hlt
      exact hnone ⟨e, he, by omega⟩
    have hrem : Remembers g.window log s t₁ :=
      ⟨older, mid, hlast.symm, fun e he => hwithin e (mem_append_left _ he)⟩
    have hrej := (h.check_errReplay_iff s t₂).2
      ⟨t₁, hrem, hwithin _ (mem_append_right _ (mem_singleton_self _))⟩
    rw [hacc] at hrej
    cases hrej

/-- A repeated sequence number is rejected exactly when some accepted call for it, at or after the
first one, is still remembered. -/
theorem check_repeat_iff (w : Int) (pre mid : List Call) (s : UInt64) (t₁ t₂ : Int)
    (hfirst : (((newReplayGuard w).checks pre).1.check s t₁).2 = .accepted) :
    let g := ((newReplayGuard w).checks pre).1
    let after := (g.check s t₁).1.checks mid
    (|t₂ - t₁| ≤ g.window → (after.1.check s t₂).2 = .errReplay) ↔
      (|t₂ - t₁| ≤ g.window →
        ∃ t, Remembers g.window (⟨⟨s, t₁⟩, .accepted⟩ :: after.2) s t ∧ t₂ ≤ t + g.window) := by
  intro g after
  have hg : Tracks g ((newReplayGuard w).checks pre).2 := tracks_run w pre
  have hg₁ := tracks_check hg ⟨s, t₁⟩
  have hafter := tracks_checks hg₁ mid
  have hwin : after.1.window = g.window := (window_checks _ mid).trans (g.check_window s t₁)
  refine imp_congr_right fun _ => ?_
  rw [hafter.check_errReplay_iff, hwin]
  refine exists_congr fun t => and_congr_left fun _ => ?_
  rw [append_assoc, remembers_append, hfirst, singleton_append]
  refine or_iff_right fun ⟨hold, hnewer⟩ => ?_
  -- an older entry still in its window at `t₁` would have made the first call fail
  have hrej : (g.check s t₁).2 = .errReplay :=
    (hg.check_errReplay_iff s t₁).2 ⟨t, hold, hnewer _ mem_cons_self⟩
  rw [hfirst] at hrej
  cases hrej

theorem check_repeat_adjacent :
    let first := ((newReplayGuard second).checks []).1.check 7 0
    first.2 = .accepted ∧ ((first.1.checks [⟨8, 3⟩]).1.check 7 5).2 = .errReplay :=
  ⟨by decide, (check_repeat_iff second [] [⟨8, 3⟩] 7 0 5 (by decide)).2
    (fun _ => ⟨0, ⟨[], _, rfl, by decide⟩, by decide⟩) (by decide)⟩

/-- One call dated 100 seconds later makes a guard with a window of 30 seconds accept the same call
twice. -/
theorem check_repeat_forgotten : ¬ ∀ (w : Int) (pre mid : List Call) (s : UInt64) (t₁ t₂ : Int),
      (((newReplayGuard w).checks pre).1.check s t₁).2 = .accepted →
      |t₂ - t₁| ≤ ((newReplayGuard w).checks pre).1.window →
      ((((((newReplayGuard w).checks pre).1.check s t₁).1.checks mid).1.check s t₂).2 =
        .errReplay) := by
  intro h
  have hreplay := h (30 * second) [] [⟨2, 100 * second⟩] 1 0 0 (by decide) (by decide)
  revert hreplay
  decide

end GoDDS.Security
