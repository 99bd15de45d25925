import KepServerLogger.Lib.Downtime
import Mathlib.Algebra.Order.BigOperators.Group.List
import Mathlib.Data.List.Chain

/-!
# What counts as downtime

A gap counts where both of its ends can be read and compared and the second is
later. The texts of the two ends of a gap come from different lines of a log,
and one may have an offset from UTC where the other has none. Such a pair is
not skipped as one that cannot be read is: its subtraction raises an exception
that nothing catches. Everything else is as it should be: the sum is never
negative, and of connections in order it is the whole time without them.
-/

namespace KepServerLogger.Lib

open KepServerLogger.Py

/-- Both can be read, but only one of them has an offset from UTC. -/
def Mixed (t0 t1 : String) : Prop :=
  ∃ a ∈ fromisoformat t0.toList, ∃ b ∈ fromisoformat t1.toList,
    a.tzinfo.isSome ≠ b.tzinfo.isSome

/-- Both can be read and compared, and the second is not earlier. -/
def InOrder (t0 t1 : String) : Prop :=
  ∃ a ∈ fromisoformat t0.toList, ∃ b ∈ fromisoformat t1.toList,
    a.tzinfo.isSome = b.tzinfo.isSome ∧ a.micros ≤ b.micros

/-- What the gap between two instants counts. -/
def gapOf (t0 t1 : String) : Int :=
  match fromisoformat t0.toList, fromisoformat t1.toList with
  | some a, some b => if b.tzinfo.isSome = a.tzinfo.isSome then max 0 (b.micros - a.micros) else 0
  | _, _ => 0

def downtime : List ConnectionSpan → Int
  | span :: next :: rest =>
      gapOf span.disconnected_at next.connected_at + downtime (next :: rest)
  | _ => 0

/-- The instant, of a text that can be read. -/
def instantOf (t : String) : Int := (fromisoformat t.toList).elim 0 Datetime.micros

def ConnectionSpan.duration (span : ConnectionSpan) : Int :=
  instantOf span.disconnected_at - instantOf span.connected_at

/-- The instants of the connections, up to the last connect. -/
def boundaries : List ConnectionSpan → List String
  | span :: next :: rest =>
      span.connected_at :: span.disconnected_at :: boundaries (next :: rest)
  | [span] => [span.connected_at]
  | [] => []

variable {t0 t1 : String} {spans rest : List ConnectionSpan} {span : ConnectionSpan}

/-! ## One gap -/

theorem deltaSeconds_of_mixed (h : Mixed t0 t1) : ∃ e, deltaSeconds t0 t1 = .error e := by
  obtain ⟨a, ha, b, hb, hmixed⟩ := h
  have hne : ¬ (t0 = "" ∨ t1 = "") := by
    rintro (rfl | rfl)
    · cases ha
    · cases hb
  unfold deltaSeconds Datetime.minus
  rw [if_neg hne, Option.mem_def.mp ha, Option.mem_def.mp hb]
  dsimp only
  rw [if_neg hmixed.symm]
  exact ⟨_, rfl⟩

theorem deltaSeconds_of_not_mixed (h : ¬ Mixed t0 t1) :
    ∃ gap, deltaSeconds t0 t1 = .ok gap ∧ gapOf t0 t1 = gap.elim 0 (max 0) := by
  unfold deltaSeconds gapOf
  by_cases hempty : t0 = "" ∨ t1 = ""
  · rw [if_pos hempty]
    refine ⟨none, rfl, ?_⟩
    rcases hempty with rfl | rfl
    · rfl
    · cases fromisoformat t0.toList <;> rfl
  · rw [if_neg hempty]
    cases ha : fromisoformat t0.toList with
    | none => exact ⟨none, rfl, rfl⟩
    | some a =>
        cases hb : fromisoformat t1.toList with
        | none => exact ⟨none, rfl, rfl⟩
        | some b =>
            have hsame : b.tzinfo.isSome = a.tzinfo.isSome := by
              by_contra hmixed
              exact h ⟨a, ha, b, hb, fun heq => hmixed heq.symm⟩
            unfold Datetime.minus
            dsimp only
            rw [if_pos hsame, if_pos hsame]
            exact ⟨some (b.micros - a.micros), rfl, rfl⟩

theorem InOrder.gapOf_eq (h : InOrder t0 t1) : gapOf t0 t1 = instantOf t1 - instantOf t0 := by
  obtain ⟨a, ha, b, hb, hsame, hle⟩ := h
  unfold gapOf instantOf
  rw [Option.mem_def.mp ha, Option.mem_def.mp hb]
  dsimp only
  rw [if_pos hsame.symm, max_eq_right (Int.sub_nonneg_of_le hle)]
  rfl

theorem gapOf_nonneg (t0 t1 : String) : 0 ≤ gapOf t0 t1 := by
  unfold gapOf
  split
  · split
    · exact le_max_left _ _
    · exact le_rfl
  · exact le_rfl

/-! ## All gaps -/

theorem downtime_nonneg (spans : List ConnectionSpan) : 0 ≤ downtime spans := by
  induction spans with
  | nil => exact le_rfl
  | cons span rest ih =>
      cases rest with
      | nil => exact le_rfl
      | cons next rest => exact Int.add_nonneg (gapOf_nonneg _ _) ih

/-- In order, the gaps are the whole time without the connections. -/
theorem downtime_of_inOrder (first : ConnectionSpan) (rest : List ConnectionSpan)
    (h : (boundaries (first :: rest)).IsChain InOrder) :
    downtime (first :: rest) =
      instantOf ((first :: rest).getLast (List.cons_ne_nil _ _)).connected_at -
        instantOf first.connected_at - ((first :: rest).dropLast.map ConnectionSpan.duration).sum := by
  induction rest generalizing first with
  | nil => simp [downtime]
  | cons next rest ih =>
      have hboundaries : ∃ after, boundaries (next :: rest) = next.connected_at :: after := by
        cases rest <;> exact ⟨_, rfl⟩
      obtain ⟨after, hafter⟩ := hboundaries
      rw [boundaries, hafter, List.isChain_cons_cons, List.isChain_cons_cons, ← hafter] at h
      obtain ⟨-, hgap, hrest⟩ := h
      rw [downtime, hgap.gapOf_eq, ih next hrest, List.getLast_cons (List.cons_ne_nil _ _),
        List.dropLast_cons_of_ne_nil (List.cons_ne_nil _ _), List.map_cons, List.sum_cons]
      unfold ConnectionSpan.duration
      omega

namespace ClientSession

/-- The sum is what it should be until a mixed pair raises. -/
theorem addGaps_eq_ok_iff (total : Int) (spans : List ConnectionSpan) :
    addGaps total spans = .ok (total + downtime spans) ↔
      spans.IsChain fun span next => ¬ Mixed span.disconnected_at next.connected_at := by
  induction spans generalizing total with
  | nil => exact iff_of_true (congrArg Except.ok (add_zero total).symm) .nil
  | cons span rest ih =>
      cases rest with
      | nil => exact iff_of_true (congrArg Except.ok (add_zero total).symm) (.singleton _)
      | cons next rest =>
          rw [List.isChain_cons_cons]
          by_cases hmixed : Mixed span.disconnected_at next.connected_at
          · obtain ⟨e, he⟩ := deltaSeconds_of_mixed hmixed
            refine iff_of_false ?_ fun h => h.1 hmixed
            rw [addGaps, he]
            rintro ⟨⟩
          · obtain ⟨gap, hgap, hgapOf⟩ := deltaSeconds_of_not_mixed hmixed
            rw [addGaps, hgap, downtime, hgapOf, and_iff_right hmixed]
            cases gap with
            | none =>
                dsimp only [Option.elim_none]
                rw [zero_add]
                exact ih total
            | some gap =>
                dsimp only [Option.elim_some]
                rw [← add_assoc]
                have htotal : (if 0 < gap then total + gap else total) = total + max 0 gap := by
                  split <;> omega
                rw [htotal]
                exact ih (total + max 0 gap)

/-- The first connect of all. -/
def firstConnect (s : ClientSession) : String :=
  (s.past_connections.head?.elim s.connected_at ConnectionSpan.connected_at)

theorem downtime_allSpans (s : ClientSession) (h : (boundaries s.allSpans).IsChain InOrder) :
    downtime s.allSpans = instantOf s.connected_at - instantOf s.firstConnect -
      (s.past_connections.map ConnectionSpan.duration).sum := by
  unfold allSpans firstConnect at *
  cases hpast : s.past_connections with
  | nil =>
      rw [hpast] at h
      exact downtime_of_inOrder _ [] h
  | cons first rest =>
      rw [hpast] at h
      generalize hlast : (⟨s.connected_at, s.auth_token, s.disconnected_at, ""⟩ : ConnectionSpan) =
        last at h ⊢
      have hdowntime := downtime_of_inOrder first (rest ++ [last]) h
      have hgetLast : (first :: (rest ++ [last])).getLast (List.cons_ne_nil _ _) = last := by simp
      rw [hgetLast, ← List.cons_append, List.dropLast_concat, ← hlast] at hdowntime
      rw [← hlast]
      exact hdowntime

/-- The downtime is the sum of the gaps that count, never negative, and of
connections in order the whole time without them, exactly if no gap has one
end with an offset from UTC and one without. -/
theorem totalDowntimeSeconds_iff (s : ClientSession) :
    (s.totalDowntimeSeconds = .ok (downtime s.allSpans) ∧ 0 ≤ downtime s.allSpans ∧
      ((boundaries s.allSpans).IsChain InOrder →
        downtime s.allSpans = instantOf s.connected_at - instantOf s.firstConnect -
          (s.past_connections.map ConnectionSpan.duration).sum)) ↔
      s.allSpans.IsChain fun span next => ¬ Mixed span.disconnected_at next.connected_at := by
  rw [← addGaps_eq_ok_iff 0, zero_add]
  exact and_iff_left ⟨downtime_nonneg _, s.downtime_allSpans⟩

/-- A client that lost its connection, and whose new one is logged with an offset. -/
def offsetAfterReconnect : ClientSession :=
  { connected_at := "2026-01-01T10:05:00+00:00"
    past_connections := [⟨"2026-01-01T09:00:00", "t", "2026-01-01T10:00:00", ""⟩] }

theorem offsetAfterReconnect_raises :
    offsetAfterReconnect.totalDowntimeSeconds = .error
        ⟨.typeError, "can't subtract offset-naive and offset-aware datetimes"⟩ ∧
      ¬ offsetAfterReconnect.totalDowntimeSeconds = .ok (downtime offsetAfterReconnect.allSpans) := by
  decide

end ClientSession

end KepServerLogger.Lib
