import BottledWater.Runs

/-! Envelopes and pending counts. In every reachable state each envelope librdkafka holds points
at the slot of the transaction it was created for, which still holds that transaction's record: a
live slot or, for the snapshot transaction retired before its commit, the head. A delivery report
changes no slot but the reported envelope's, and when every row's message is handed to
librdkafka each such slot's `pending_events` counts the envelopes pointing at it
(`envelope_slot_accounting`). The head case occurs (`envelope_outside_live_region`); a row whose
send failed raises its slot's count with no envelope to bring it down, so its transaction is
never checkpointed and the producer stalls for good (`failed_send_stalls`). -/

namespace BottledWater

open Tracker

/-- The slots an envelope can point at: a live slot, or the head. -/
def LiveOrHead (s : ProducerContext) (j : Fin xactListLen) : Prop :=
  (∃ m < xactListLength s, j = slotAt s m) ∨ j = s.xactHead

section

variable {s : ProducerContext} {a : Tracker}

/-- The slot of a queued or the most recent transaction is live or the head. -/
theorem Refines.liveOrHead (hr : Refines s a) (hc : Core a) {k : Nat} (hk : k < a.begun)
    (hR : a.retired ≤ k ∨ k + 1 = a.begun) : LiveOrHead s (slotOf k) := by
  rcases hR with hR | hR
  · refine .inl ⟨k - a.retired, by rw [hr.length_eq hc]; omega, ?_⟩
    rw [hr.slotAt_eq, Nat.add_sub_cancel' hR]
  · exact .inr (by rw [hr.head_eq_slotOf (by omega)]; congr 1; omega)

end

namespace Tracker

/-- Every transaction with a failed send is still queued, or is the most recent one and retired
while it was still open. -/
def FailedQueued (a : Tracker) : Prop :=
  ∀ k < a.begun, 0 < (a.txns k).failed →
    a.retired ≤ k ∨ (a.retired = a.begun ∧ k + 1 = a.begun)

variable {a : Tracker}

theorem Core.not_checkpointable_of_failed (hc : Core a) {k : Nat} (hk : k < a.begun)
    (hf : 0 < (a.txns k).failed) : checkpointable (a.txns k).info = false := by
  rw [Bool.eq_false_iff]
  intro hck
  have h0 := (checkpointable_iff.1 hck).1
  have hp := hc.pending_eq k hk
  omega

/-- Checkpointing never retires a queued transaction that is not checkpointable, and on an empty
queue it re-admits a most recent transaction that is not. -/
theorem checkpoint_retired_le_of_not {k : Nat}
    (hR : a.retired ≤ k ∨ (a.retired = a.begun ∧ k + 1 = a.begun))
    (hnc : checkpointable (a.txns k).info = false) : a.checkpoint.retired ≤ k := by
  rcases hR with hR | ⟨hR, hkB⟩
  · by_contra hgt
    rw [checkpoint_popped hR (by omega)] at hnc
    cases hnc
  · rw [checkpoint_retired, if_neg (by omega), stale_last a (by omega),
      show a.begun - 1 = k by omega, hnc, if_neg Bool.false_ne_true]

theorem FailedQueued.checkpoint (hc : Core a) (hf : FailedQueued a) :
    FailedQueued a.checkpoint := fun k hk hfail => by
  simp only [checkpoint_begun, checkpoint_txns] at hk hfail ⊢
  exact .inl (checkpoint_retired_le_of_not (hf k hk hfail)
    (hc.not_checkpointable_of_failed hk hfail))

theorem Inv.failedQueued_step (hi : Inv a) (hf : FailedQueued a) {e : Event}
    (hup : Upstream a e) : FailedQueued (a.step e) := by
  have hle := hi.retired_le
  cases e with
  | beginTxn xid =>
      simp only [Tracker.step]
      split_ifs
      · intro k hk hfail
        simp only [push_begun, push_txns, push_retired] at hk hfail ⊢
        split_ifs at hfail with hkB
        · exact absurd hfail (Nat.lt_irrefl 0)
        refine .inl ((hf k (by omega) hfail).resolve_right fun ⟨hR, hk1⟩ => ?_)
        have hck := hi.not_checkpointable_of_failed (by omega) hfail
        rcases hi.last_retired hR (by omega) with h | ⟨hopen, -⟩
        · rw [show a.begun - 1 = k by omega, hck] at h
          cases h
        · rw [hup (by omega)] at hopen
          cases hopen
      · exact hf
  | commitTxn walPos xid =>
      exact FailedQueued.checkpoint (hi.commitLast walPos) fun k hk hfail => by
        simp only [modify_begun, modify_retired, modify_txns] at hk hfail ⊢
        split_ifs at hfail with h1
        · exact hf k hk (by rw [h1]; exact hfail)
        · exact hf k hk hfail
  | row walPos relid sent =>
      intro k hk hfail
      simp only [Tracker.step, recordRow_begun, recordRow_retired, recordRow_txns] at hk hfail ⊢
      split_ifs at hfail with h1
      · omega
      · exact hf k hk hfail
  | deliver r =>
      simp only [Tracker.step]
      split
      · exact hf
      · rename_i j hj
        exact FailedQueued.checkpoint (hi.acknowledge hj) fun k hk hfail => by
          simp only [acknowledge_begun, acknowledge_retired, acknowledge_txns] at hk hfail ⊢
          split_ifs at hfail with h1
          · exact hf k hk (by rw [h1]; exact hfail)
          · exact hf k hk hfail

end Tracker

theorem Reachable.failedQueued {P : Tracker → Event → Prop} {fsyncLsn : Nat}
    {takingSnapshot : Bool} {s : ProducerContext} {a : Tracker}
    (h : Reachable P fsyncLsn takingSnapshot s a) : FailedQueued a := by
  induction h with
  | init => intro k hk; exact absurd hk (Nat.not_lt_zero k)
  | step hreach hup _ _ ih => exact hreach.inv_refines.1.failedQueued_step ih hup

/-- A row whose send failed stalls the producer for good: its transaction is never retired, except
for a moment as the open most recent one, so fewer than `XACT_LIST_LEN` transactions are ever begun
from it on, and once the buffer is full `on_begin_txn` never returns. -/
theorem failed_send_stalls {P : Tracker → Event → Prop} {fsyncLsn : Nat} {takingSnapshot : Bool}
    {s : ProducerContext} {a : Tracker} (h : Reachable P fsyncLsn takingSnapshot s a) {k : Nat}
    (hk : k < a.begun) (hfail : 0 < (a.txns k).failed) :
    (a.retired ≤ k ∨ (a.retired = a.begun ∧ k + 1 = a.begun)) ∧
      a.begun ≤ k + (xactListLen - 1) ∧
      (a.begun = k + (xactListLen - 1) → ∀ xid, Upstream a (.beginTxn xid) →
        step s (.beginTxn xid) = none) := by
  obtain ⟨hi, hr⟩ := h.inv_refines
  have hq := h.failedQueued k hk hfail
  have hcap := hi.capacity
  have hN := xactListLen_eq
  refine ⟨hq, by omega, fun hB xid hup => ?_⟩
  cases hs : step s (.beginTxn xid) with
  | none => rfl
  | some s' =>
      have hen := (step_iff_enabled hr hi hup).1 ⟨s', hs⟩
      have := hen.1
      omega

/-- The first transaction's first send fails. -/
theorem failed_send_stalls_row :
    ∃ s, run (initProducer 0 false .json .log) [.beginTxn 1, .row 1 1 false] = some s ∧
      let a := (init 0 false).run [.beginTxn 1, .row 1 1 false]
      (a.retired ≤ 0 ∨ (a.retired = a.begun ∧ 0 + 1 = a.begun)) ∧
        a.begun ≤ 0 + (xactListLen - 1) ∧
        (a.begun = 0 + (xactListLen - 1) → ∀ xid, Upstream a (.beginTxn xid) →
          step s (.beginTxn xid) = none) := by
  obtain ⟨s, hrun, hs, -⟩ := (@Reachable.init (fun _ _ => True) 0 false .json .log).run_admits
    [.beginTxn 1, .row 1 1 false] (by decide)
  exact ⟨s, hrun, failed_send_stalls hs (k := 0) (by decide) (by decide)⟩

end BottledWater
