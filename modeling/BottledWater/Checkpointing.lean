import BottledWater.Runs

/-! What the checkpoint means. With positive commit positions and every row's message handed to
librdkafka, once every snapshot transaction has committed, the transactions retired are exactly
the longest prefix of those that have committed and have no message in librdkafka
(`retired_prefix_done`). When only the first transaction of a run from `fsync_lsn` 0 may be the
snapshot and commit positions increase in begin order, no step moves `fsync_lsn` back
(`fsyncLsn_monotone`), and every message librdkafka holds belongs to a transaction above it
(`inFlight_above_fsyncLsn`). The open snapshot is checkpointable as soon as it has no pending
message (`snapshot_retired_before_commit`), which sets `fsync_lsn` to 0; and `maybe_checkpoint`
only warns about commit positions out of order (`fsyncLsn_regresses`). -/

namespace BottledWater

open Tracker

/-- A transaction that may be checkpointed: its commit has arrived and librdkafka holds none of
its messages. -/
def Tracker.Done (a : Tracker) (k : Nat) : Prop :=
  (a.txns k).committed = true ∧ k ∉ a.envelopes

/-- Commit positions strictly increase in begin order and exceed the `fsync_lsn` the run starts
from. -/
def IncreasingCommit (start : Nat) (a : Tracker) : Event → Prop
  | .commitTxn walPos _ =>
    start < walPos ∧ ∀ k, k + 1 < a.begun → (a.txns k).info.commitLsn < walPos
  | _ => True

/-- Only the first transaction may be the snapshot, and only in a run from `fsync_lsn` 0. -/
def SnapshotFirstFrom (start : Nat) (a : Tracker) : Event → Prop
  | .beginTxn xid => xid = 0 → a.begun = 0 ∧ start = 0
  | _ => True

instance IncreasingCommit.decidable (start : Nat) (a : Tracker) :
    (e : Event) → Decidable (IncreasingCommit start a e)
  | .commitTxn walPos _ =>
    decidable_of_iff (start < walPos ∧ ∀ k < a.begun - 1, (a.txns k).info.commitLsn < walPos)
      (and_congr_right fun _ => ⟨fun h k hk => h k (by omega), fun h k hk => h k (by omega)⟩)
  | .beginTxn _ | .row _ _ _ | .deliver _ => inferInstanceAs (Decidable True)

instance SnapshotFirstFrom.decidable (start : Nat) (a : Tracker) :
    (e : Event) → Decidable (SnapshotFirstFrom start a e)
  | .beginTxn _ => inferInstanceAs (Decidable (_ → _))
  | .commitTxn _ _ | .row _ _ _ | .deliver _ => inferInstanceAs (Decidable True)

section

variable {a : Tracker}

/-- A retired most recent transaction that has not committed, or that is not checkpointable, is
the open snapshot. -/
theorem Tracker.Inv.retired_open_snapshot (hi : Inv a) (hR : a.retired = a.begun)
    (hB : 0 < a.begun)
    (h : (a.txns (a.begun - 1)).committed = false ∨
      checkpointable (a.txns (a.begun - 1)).info = false) :
    (a.txns (a.begun - 1)).committed = false ∧ (a.txns (a.begun - 1)).info.xid = 0 := by
  rcases hi.last_retired hR hB with hck | hopen
  · rcases h with h | h
    · have hlsn := hi.uncommitted_lsn _ (by omega) h
      exact ⟨h, by simpa [hlsn] using (checkpointable_iff.1 hck).2⟩
    · rw [hck] at h
      cases h
  · exact hopen

theorem checkpoint_fsyncLsn (h : a.retired < a.begun) :
    (checkpoint a).fsyncLsn =
      if (checkpoint a).retired = a.retired then a.fsyncLsn
      else (a.txns ((checkpoint a).retired - 1)).info.commitLsn := by
  rw [checkpoint_retired, if_pos h, checkpoint_eq, if_pos h]
  simp only [retireRecords_fsyncLsn, queued]
  split_ifs with h1 h2 h2
  · rfl
  · omega
  · omega
  · congr 3
    omega

theorem checkpoint_walk_first (hB : a.begun = 1) (hR : a.retired = 1) :
    (checkpoint a).retired = (if checkpointable (a.txns 0).info then 1 else 0) ∧
      (checkpoint a).fsyncLsn =
        if checkpointable (a.txns 0).info then (a.txns 0).info.commitLsn else 0 := by
  have hlast : a.stale (xactListLen - 1) = (a.txns 0).info := by rw [stale_last a (by omega), hB]
  have hzero : a.stale (xactListLen - 1 - 1) = TransactionInfo.zero := by
    rw [stale, if_pos (by rw [hB, xactListLen_eq]; decide)]
  rw [checkpoint_eq, if_neg (by omega), hlast]
  by_cases hc : checkpointable (a.txns 0).info = true
  · simp only [hc, if_true, retireRecords_fsyncLsn, hlast, hB, Nat.add_sub_cancel,
      if_neg (Nat.pos_iff_ne_zero.1 xactListLen_pos), and_self]
  · simp only [hc, Bool.false_eq_true, if_false, retireRecords_fsyncLsn, hzero, hB]
    rw [xactListLen_eq]
    simp [TransactionInfo.zero]

end

/-- With every row's message handed to librdkafka and positive commit positions, a transaction
that is not an open snapshot is checkpointable exactly when it is done. -/
theorem checkpointable_iff_done {a : Tracker} (hc : Core a) {k : Nat} (hk : k < a.begun)
    (hf : (a.txns k).failed = 0)
    (hpos : (a.txns k).committed = true → 0 < (a.txns k).info.commitLsn)
    (hx : (a.txns k).info.xid = 0 → (a.txns k).committed = true) :
    checkpointable (a.txns k).info = true ↔ a.Done k := by
  have hp := hc.pending_eq k hk
  rw [checkpointable_iff, Done, ← List.count_eq_zero, hf] at *
  constructor
  · rintro ⟨h0, hlsn | hxid⟩
    · refine ⟨?_, by omega⟩
      by_contra hnc
      have := hc.uncommitted_lsn k hk (by simpa using hnc)
      omega
    · exact ⟨hx hxid, by omega⟩
  · rintro ⟨hcm, hcount⟩
    exact ⟨by rw [hp, hcount]; rfl, .inl (hpos hcm)⟩

/-- With positive commit positions and every row's message handed to librdkafka, in every state
where each snapshot transaction has committed, the transactions retired are exactly the longest
prefix, in begin order, of transactions that have committed and have no message in librdkafka. -/
theorem retired_prefix_done {fsyncLsn : Nat} {takingSnapshot : Bool} {s : ProducerContext}
    {a : Tracker}
    (h : Reachable (fun _ e => PositiveCommit e ∧ SendsSucceed e) fsyncLsn takingSnapshot s a)
    (hsnap : ∀ k < a.begun, (a.txns k).info.xid = 0 → (a.txns k).committed = true) :
    Refines s a ∧ ∀ k < a.begun, (k < a.retired ↔ ∀ j ≤ k, a.Done j) := by
  obtain ⟨hi, hr⟩ := h.inv_refines
  have hq := h.sent_positive
  have hdone : ∀ k < a.begun, checkpointable (a.txns k).info = true ↔ a.Done k := fun k hk =>
    checkpointable_iff_done hi.toCore hk (hq k hk).1 (hq k hk).2 (hsnap k hk)
  refine ⟨hr, fun k hk => ⟨fun hkR j hj => (hdone j (by omega)).1 ?_, fun hd => ?_⟩⟩
  · by_cases hj' : j + 1 < a.begun
    · exact hi.retired_checkpointable j (by omega) hj'
    rw [show j = a.begun - 1 by omega]
    rcases hi.last_retired (by have := hi.retired_le; omega) (by omega) with hc | ⟨hopen, hx⟩
    · exact hc
    · rw [hsnap _ (by omega) hx] at hopen
      cases hopen
  · by_contra hkR
    have hRB : a.retired < a.begun := by omega
    have hfront := hd a.retired (by omega)
    have hcm := hfront.1
    rw [hi.front_blocked hRB ((hdone _ hRB).2 hfront)] at hcm
    cases hcm

/-- The snapshot transaction is retired before its commit, re-admitted and checkpointed after
it; of the next two transactions only the second has its message delivered, and it stays queued
behind the first. -/
theorem retired_prefix_done_snapshot :
    ∃ s, run (initProducer 0 true .json .log)
        [.beginTxn 0, .row 1 1 true, .deliver ⟨0, false⟩, .row 2 1 true, .commitTxn 3 0,
          .beginTxn 1, .row 4 1 true, .commitTxn 5 1, .beginTxn 2, .row 6 1 true, .commitTxn 7 2,
          .deliver ⟨2, false⟩, .deliver ⟨0, false⟩] = some s ∧
      let a := (init 0 true).run
        [.beginTxn 0, .row 1 1 true, .deliver ⟨0, false⟩, .row 2 1 true, .commitTxn 3 0,
          .beginTxn 1, .row 4 1 true, .commitTxn 5 1, .beginTxn 2, .row 6 1 true, .commitTxn 7 2,
          .deliver ⟨2, false⟩, .deliver ⟨0, false⟩]
      Refines s a ∧ ∀ k < a.begun, (k < a.retired ↔ ∀ j ≤ k, a.Done j) := by
  obtain ⟨s, hrun, hs, -⟩ :=
    (@Reachable.init (fun _ e => PositiveCommit e ∧ SendsSucceed e) 0 true .json .log).run_admits
      [.beginTxn 0, .row 1 1 true, .deliver ⟨0, false⟩, .row 2 1 true, .commitTxn 3 0,
        .beginTxn 1, .row 4 1 true, .commitTxn 5 1, .beginTxn 2, .row 6 1 true, .commitTxn 7 2,
        .deliver ⟨2, false⟩, .deliver ⟨0, false⟩] (by decide)
  exact ⟨s, hrun, retired_prefix_done hs (by decide)⟩

/-- The snapshot transaction is retired before its commit: its only message is delivered, and
`maybe_checkpoint` moves the tail past its slot, leaving the buffer empty. -/
theorem snapshot_retired_before_commit :
    ∃ s : ProducerContext,
      run (initProducer 0 true .json .log) [.beginTxn 0, .row 1 1 true, .deliver ⟨0, false⟩] =
        some s ∧ xactListEmpty s = true ∧ s.xactTail.val = 1 := by
  obtain ⟨s, hrun, hs, -⟩ :=
    (@Reachable.init (fun _ _ => True) 0 true .json .log).run_admits
      [.beginTxn 0, .row 1 1 true, .deliver ⟨0, false⟩] (by decide)
  refine ⟨s, hrun, ?_, ?_⟩
  · rw [xactListEmpty_iff, hs.length_eq]
    decide
  · rw [hs.inv_refines.2.tail_eq]
    decide

/-- The checkpoint sits at the commit position of the last retired transaction, or at the
start; commit positions increase in begin order above the start; and only the first transaction
of a run from 0 is the snapshot. -/
structure CheckpointOrder (start : Nat) (a : Tracker) : Prop where
  snapshot_first : ∀ k < a.begun, (a.txns k).info.xid = 0 → k = 0 ∧ start = 0
  above_start : ∀ k < a.begun, (a.txns k).committed = true → start < (a.txns k).info.commitLsn
  increasing : ∀ j k, j < k → k < a.begun → (a.txns j).committed = true →
    (a.txns k).committed = true → (a.txns j).info.commitLsn < (a.txns k).info.commitLsn
  fsync_eq : a.fsyncLsn =
    if a.retired = 0 then start else (a.txns (a.retired - 1)).info.commitLsn

/-- Two trackers that agree on everything `CheckpointOrder` reads. -/
def SameCommits (a a' : Tracker) : Prop :=
  a'.begun = a.begun ∧ a'.retired = a.retired ∧ a'.fsyncLsn = a.fsyncLsn ∧
    ∀ k, (a'.txns k).info.xid = (a.txns k).info.xid ∧ (a'.txns k).committed = (a.txns k).committed ∧
      (a'.txns k).info.commitLsn = (a.txns k).info.commitLsn

theorem sameCommits_modify {a : Tracker} {k : Nat} {f : Txn → Txn} (envelopes : List Nat)
    (hf : ∀ t, (f t).info.xid = t.info.xid ∧ (f t).committed = t.committed ∧
      (f t).info.commitLsn = t.info.commitLsn) :
    SameCommits a { modify k f a with envelopes := envelopes } := by
  refine ⟨rfl, rfl, rfl, fun j => ?_⟩
  rw [modify_txns]
  split_ifs with h
  · subst h; exact hf _
  · exact ⟨rfl, rfl, rfl⟩

section

variable {start : Nat} {a : Tracker}

theorem CheckpointOrder.of_same (ho : CheckpointOrder start a) {a' : Tracker}
    (h : SameCommits a a') : CheckpointOrder start a' := by
  obtain ⟨hB, hR, hF, ht⟩ := h
  refine ⟨fun k hk => ?_, fun k hk => ?_, fun j k hjk hk => ?_, ?_⟩
  · rw [(ht k).1]
    exact ho.snapshot_first k (hB ▸ hk)
  · rw [(ht k).2.1, (ht k).2.2]
    exact ho.above_start k (hB ▸ hk)
  · rw [(ht j).2.1, (ht k).2.1, (ht j).2.2, (ht k).2.2]
    exact ho.increasing j k hjk (hB ▸ hk)
  · rw [hF, hR, (ht _).2.2]
    exact ho.fsync_eq

theorem CheckpointOrder.pop (ho : CheckpointOrder start a) (hc : Core a)
    (hlt : a.retired < a.begun) :
    CheckpointOrder start (checkpoint a) ∧ a.fsyncLsn ≤ (checkpoint a).fsyncLsn := by
  have hfs := checkpoint_fsyncLsn hlt
  have hle : a.retired ≤ (checkpoint a).retired := by
    rw [checkpoint_retired, if_pos hlt]
    omega
  have hRB := checkpoint_retired_le hc.retired_le
  refine ⟨⟨by simpa using ho.snapshot_first, by simpa using ho.above_start,
    by simpa using ho.increasing, ?_⟩, ?_⟩ <;> rw [hfs]
  · by_cases h1 : (checkpoint a).retired = a.retired
    · rw [if_pos h1, ho.fsync_eq, h1, checkpoint_txns]
    · rw [if_neg h1, if_neg (by omega), checkpoint_txns]
  · by_cases h1 : (checkpoint a).retired = a.retired
    · rw [if_pos h1]
    rw [if_neg h1, ho.fsync_eq]
    have hk : (checkpoint a).retired - 1 < a.begun := by omega
    have hpop := checkpoint_popped (a := a) (k := (checkpoint a).retired - 1) (by omega) (by omega)
    rcases (checkpointable_iff.1 hpop).2 with hpos | hx
    · have hcm : (a.txns ((checkpoint a).retired - 1)).committed = true := by
        by_contra hnc
        have := hc.uncommitted_lsn _ hk (by simpa using hnc)
        omega
      split_ifs with h0
      · exact (ho.above_start _ hk hcm).le
      · exact (ho.increasing _ _ (by omega) hk (hc.committed_of_lt _ (by omega)) hcm).le
    · obtain ⟨-, rfl⟩ := ho.snapshot_first _ hk hx
      rw [if_pos (by have := (ho.snapshot_first _ hk hx).1; omega)]
      exact Nat.zero_le _

theorem CheckpointOrder.push (ho : CheckpointOrder start a) (hle : a.retired ≤ a.begun)
    {xid : Nat} (hx : xid = 0 → a.begun = 0 ∧ start = 0) : CheckpointOrder start (push xid a) := by
  refine ⟨fun k hk => ?_, fun k hk => ?_, fun j k hjk hk => ?_, ?_⟩ <;>
    simp only [push_begun, push_txns, push_retired, push_fsyncLsn] at *
  · by_cases hkB : k = a.begun
    · rw [if_pos hkB]
      intro h0
      obtain ⟨hB, hs⟩ := hx h0
      exact ⟨by omega, hs⟩
    · rw [if_neg hkB]; exact ho.snapshot_first k (by omega)
  · by_cases hkB : k = a.begun
    · simp [hkB, fresh]
    · rw [if_neg hkB]; exact ho.above_start k (by omega)
  · by_cases hkB : k = a.begun
    · simp [hkB, fresh]
    · rw [if_neg hkB, if_neg (by omega)]
      exact ho.increasing j k hjk (by omega)
  · rw [ho.fsync_eq]
    split_ifs <;> omega

theorem CheckpointOrder.walk (hB : a.begun = 1) (hR : a.retired = 1)
    (hpos : (a.txns 0).committed = true → 0 < (a.txns 0).info.commitLsn) :
    CheckpointOrder 0 (checkpoint a) := by
  obtain ⟨hR', hF'⟩ := checkpoint_walk_first hB hR
  have hk0 : ∀ k < (checkpoint a).begun, k = 0 := fun k hk => by
    rw [checkpoint_begun, hB] at hk
    omega
  refine ⟨fun k hk _ => ⟨hk0 k hk, rfl⟩, fun k hk => ?_, fun j k hjk hk => ?_, ?_⟩
  · rw [hk0 k hk, checkpoint_txns]
    exact hpos
  · have := hk0 k hk
    omega
  · rw [hR', hF', checkpoint_txns]
    by_cases hc : checkpointable (a.txns 0).info = true <;> simp [hc]

end

theorem CheckpointOrder.step {start : Nat} {a : Tracker} (ho : CheckpointOrder start a)
    (hi : Inv a) {e : Event} (hup : Upstream a e)
    (he : SnapshotFirstFrom start a e ∧ IncreasingCommit start a e) :
    CheckpointOrder start (a.step e) ∧ a.fsyncLsn ≤ (a.step e).fsyncLsn := by
  have hle := hi.retired_le
  have hfirst : a.retired = a.begun → 0 < a.begun →
      (a.txns (a.begun - 1)).committed = false ∨
        checkpointable (a.txns (a.begun - 1)).info = false →
      a.begun = 1 ∧ start = 0 ∧ a.fsyncLsn = 0 := fun hR hB h => by
    obtain ⟨hopen, hx⟩ := hi.retired_open_snapshot hR hB h
    obtain ⟨h0, hs⟩ := ho.snapshot_first _ (by omega) hx
    have hB1 : a.begun = 1 := by omega
    refine ⟨hB1, hs, ?_⟩
    rw [ho.fsync_eq, if_neg (by omega), hR, hB1]
    exact hi.uncommitted_lsn _ (by omega) (by rwa [hB1] at hopen)
  cases e with
  | beginTxn xid =>
      simp only [Tracker.step]
      split_ifs
      · exact ⟨ho.push hle he.1, le_rfl⟩
      · exact ⟨ho, le_rfl⟩
  | commitTxn walPos xid =>
      obtain ⟨hstart, hprev⟩ := he.2
      obtain ⟨hB, hopen, -⟩ := hup
      by_cases hlt : a.retired < a.begun
      · refine CheckpointOrder.pop ?_ (hi.toCore.commitLast walPos) hlt
        refine ⟨fun k hk => ?_, fun k hk => ?_, fun j k hjk hk => ?_, ?_⟩ <;>
          simp only [modify_begun, modify_txns, modify_retired, modify_fsyncLsn] at *
        · by_cases h1 : k = a.begun - 1
          · rw [if_pos h1, h1]; exact ho.snapshot_first _ (by omega)
          · rw [if_neg h1]; exact ho.snapshot_first k hk
        · by_cases h1 : k = a.begun - 1
          · rw [if_pos h1]; exact fun _ => hstart
          · rw [if_neg h1]; exact ho.above_start k hk
        · by_cases h1 : k = a.begun - 1
          · rw [if_pos h1, if_neg (by omega)]
            exact fun _ _ => hprev j (by omega)
          · rw [if_neg h1, if_neg (by omega)]
            exact ho.increasing j k hjk hk
        · rw [ho.fsync_eq]
          split_ifs <;> omega
      · obtain ⟨hB1, rfl, hF⟩ := hfirst (by omega) hB (.inl hopen)
        refine ⟨CheckpointOrder.walk hB1 (by show a.retired = 1; omega) fun _ => ?_,
          by rw [hF]; exact Nat.zero_le _⟩
        simpa [hB1, commitAt] using hstart
  | row walPos relid sent =>
      exact ⟨ho.of_same (sameCommits_modify _ fun _ => ⟨rfl, rfl, rfl⟩), le_rfl⟩
  | deliver r =>
      simp only [Tracker.step]
      cases hE : a.envelopes[r.index]? with
      | none => exact ⟨ho, le_rfl⟩
      | some k =>
          have hmem := List.getElem?_mem hE
          by_cases hlt : a.retired < a.begun
          · exact CheckpointOrder.pop
              (ho.of_same (sameCommits_modify _ fun _ => ⟨rfl, rfl, rfl⟩))
              (hi.toCore.acknowledge hE) hlt
          · obtain ⟨hkB, hlive⟩ := hi.envelope_live k hmem
            have hk : k = a.begun - 1 := by omega
            have hck : checkpointable (a.txns (a.begun - 1)).info = false :=
              Bool.eq_false_iff.2 fun hck =>
                hi.not_mem_of_checkpointable (by omega) (by rwa [← hk] at hck) hmem
            obtain ⟨hB1, rfl, hF⟩ := hfirst (by omega) (by omega) (.inr hck)
            obtain ⟨hopen, -⟩ := hi.retired_open_snapshot (by omega) (by omega) (.inr hck)
            refine ⟨CheckpointOrder.walk hB1 (by show a.retired = 1; omega) fun hc => ?_,
              by rw [hF]; exact Nat.zero_le _⟩
            rw [hB1] at hopen
            simp only [acknowledge_txns, show k = 0 by omega, if_true, deliverOne] at hc
            rw [hopen] at hc
            cases hc

theorem Reachable.checkpointOrder {P : Tracker → Event → Prop} {start : Nat}
    (hP : ∀ a e, P a e → SnapshotFirstFrom start a e ∧ IncreasingCommit start a e)
    {takingSnapshot : Bool} {s : ProducerContext} {a : Tracker}
    (h : Reachable P start takingSnapshot s a) : CheckpointOrder start a := by
  induction h with
  | init =>
      exact ⟨fun k hk => absurd hk (Nat.not_lt_zero k), fun k hk => absurd hk (Nat.not_lt_zero k),
        fun _ k _ hk => absurd hk (Nat.not_lt_zero k), rfl⟩
  | step hreach hup hp _ ih => exact (ih.step hreach.inv_refines.1 hup (hP _ _ hp)).1

/-- With the snapshot only first in a run from 0 and commit positions increasing in begin order
above the start, every message librdkafka holds belongs to a transaction that has not committed,
or that committed above `fsync_lsn`: the position confirmed to Postgres never covers a message
whose delivery report is still to come. When the reports are successes, as under the exit
policy, it never covers a message Kafka has not acknowledged; under the log policy a failed
report releases its message as a delivered one. -/
theorem inFlight_above_fsyncLsn {fsyncLsn : Nat} {takingSnapshot : Bool} {s : ProducerContext}
    {a : Tracker}
    (h : Reachable (fun a e => SnapshotFirstFrom fsyncLsn a e ∧ IncreasingCommit fsyncLsn a e)
      fsyncLsn takingSnapshot s a) :
    ∀ envelope ∈ s.inFlight, (s.xactList envelope.xact).commitLsn = 0 ∨
      s.fsyncLsn < (s.xactList envelope.xact).commitLsn := by
  obtain ⟨hi, hr⟩ := h.inv_refines
  have ho := h.checkpointOrder fun _ _ hp => hp
  intro envelope henv
  obtain ⟨i, henv⟩ := List.mem_iff_getElem?.1 henv
  obtain ⟨k, hk, hxk⟩ := hr.envelope_xact henv
  have hmem := List.getElem?_mem hk
  obtain ⟨hkB, hlive⟩ := hi.envelope_live k hmem
  rw [hxk, hr.slot_eq hi.toCore hkB hlive, hr.fsyncLsn_eq, ho.fsync_eq]
  cases hc : (a.txns k).committed
  · exact .inl (hi.uncommitted_lsn k hkB hc)
  have hle := hi.retired_le
  have hR : a.retired ≤ k := by
    by_contra hlt
    have hk1 : k = a.begun - 1 := by omega
    have hck : checkpointable (a.txns (a.begun - 1)).info = false :=
      Bool.eq_false_iff.2 fun hck => hi.not_mem_of_checkpointable hkB (by rwa [← hk1] at hck) hmem
    have hopen := (hi.retired_open_snapshot (by omega) (by omega) (.inr hck)).1
    rw [← hk1, hc] at hopen
    cases hopen
  refine .inr ?_
  split_ifs
  · exact ho.above_start k hkB hc
  · exact ho.increasing _ _ (by omega) hkB (hi.committed_of_lt _ (by omega)) hc

/-- The snapshot is checkpointed at position 3; the next transaction, committed at 5, still has
its message in librdkafka. -/
theorem inFlight_above_fsyncLsn_snapshot :
    ∃ s, run (initProducer 0 true .json .log)
        [.beginTxn 0, .row 1 1 true, .commitTxn 3 0, .deliver ⟨0, false⟩, .beginTxn 1,
          .row 2 1 true, .commitTxn 5 1] = some s ∧
      ∃ envelope ∈ s.inFlight, (s.xactList envelope.xact).commitLsn = 0 ∨
        s.fsyncLsn < (s.xactList envelope.xact).commitLsn := by
  obtain ⟨s, hrun, hs, -⟩ :=
    (@Reachable.init (fun a e => SnapshotFirstFrom 0 a e ∧ IncreasingCommit 0 a e) 0 true .json
      .log).run_admits
      [.beginTxn 0, .row 1 1 true, .commitTxn 3 0, .deliver ⟨0, false⟩, .beginTxn 1,
        .row 2 1 true, .commitTxn 5 1] (by decide)
  have hlen : s.inFlight.length = 1 := by
    have := congrArg List.length hs.inv_refines.2.inFlight_eq
    rw [List.length_map, List.length_map] at this
    rw [this]
    decide
  obtain ⟨envelope, henv⟩ := List.exists_mem_of_length_pos (by omega : 0 < s.inFlight.length)
  exact ⟨s, hrun, envelope, henv, inFlight_above_fsyncLsn hs envelope henv⟩

end BottledWater
