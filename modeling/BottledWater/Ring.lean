import BottledWater.Runs

/-! The circular buffer as a queue. Along every run the upstream allows, the slots read from
`xact_tail` are the tracker's queued records in order, the buffer's length is the queue's and
stays below `XACT_LIST_LEN`, and `xact_list_empty`, hence `on_keepalive`, answers for the
queue (`ring_refines_queue`).

The queue is not one whose checkpoint only pops: a delivery report can make an empty buffer
non-empty again (`delivery_reopens_empty_ring`). The snapshot transaction is checkpointable as
soon as it has no pending message (the `xid == 0` disjunct), so it can be retired before its
commit; rows that still come for it count against the head slot, and the next
`maybe_checkpoint` walks the stale slots all the way round to it and stops there. -/

namespace BottledWater

open Tracker

/-- The buffer refines the tracker's queue along every run the upstream allows. -/
theorem ring_refines_queue {P : Tracker → Event → Prop} {fsyncLsn : Nat} {takingSnapshot : Bool}
    {s : ProducerContext} {a : Tracker} (h : Reachable P fsyncLsn takingSnapshot s a)
    (syncPending : Int) :
    Refines s a ∧ xactListLength s = a.begun - a.retired ∧ xactListLength s ≤ xactListLen - 1 ∧
      (∀ i < xactListLength s, s.xactList (slotAt s i) = a.queued i) ∧
      (xactListEmpty s = true ↔ a.retired = a.begun) ∧
      onKeepalive syncPending s = if a.retired = a.begun then 0 else syncPending := by
  obtain ⟨hi, hr⟩ := h.inv_refines
  have hlen := h.length_eq
  have hle := hi.retired_le
  have hcap := hi.capacity
  have hempty : xactListEmpty s = true ↔ a.retired = a.begun := by
    rw [xactListEmpty_iff, hlen]
    omega
  refine ⟨hr, hlen, by omega, fun i hi' => hr.queued_eq hi.toCore (by omega), hempty, ?_⟩
  simp only [onKeepalive]
  by_cases hR : a.retired = a.begun
  · rw [if_pos (hempty.2 hR), if_pos hR]
  · rw [if_neg (mt hempty.1 hR), if_neg hR]

/-- The snapshot transaction is retired before its commit, re-admitted by a walk of the stale
slots, committed and retired; 1001 transactions without rows then take the head and the tail
round the buffer, and the next transaction's row is queued in a reused slot. -/
theorem ring_refines_queue_wrapped :
    ∃ s, run (initProducer 0 true .json .log)
        ([.beginTxn 0, .row 1 1 true, .deliver ⟨0, false⟩, .row 2 1 true, .row 3 1 true,
          .deliver ⟨0, false⟩, .commitTxn 4 0, .deliver ⟨0, false⟩] ++ rowlessTxns xactListLen ++
          [.beginTxn (xactListLen + 1), .row 5 1 true]) = some s ∧
      let a := (init 0 true).run
        ([.beginTxn 0, .row 1 1 true, .deliver ⟨0, false⟩, .row 2 1 true, .row 3 1 true,
          .deliver ⟨0, false⟩, .commitTxn 4 0, .deliver ⟨0, false⟩] ++ rowlessTxns xactListLen ++
          [.beginTxn (xactListLen + 1), .row 5 1 true])
      Refines s a ∧ xactListLength s = a.begun - a.retired ∧
        xactListLength s ≤ xactListLen - 1 ∧
        (∀ i < xactListLength s, s.xactList (slotAt s i) = a.queued i) ∧
        (xactListEmpty s = true ↔ a.retired = a.begun) ∧
        onKeepalive 1 s = if a.retired = a.begun then 0 else 1 := by
  have hopen : ∀ {s1 : ProducerContext} {a1 : Tracker},
      Reachable (fun _ _ => True) 0 true s1 a1 → a1.retired = a1.begun →
      (0 < a1.begun → (a1.txns (a1.begun - 1)).committed = true) → s1.outputFormat = .json →
      ∃ s2, run s1 [.beginTxn (xactListLen + 1), .row 5 1 true] = some s2 ∧
        Reachable (fun _ _ => True) 0 true s2
          (a1.run [.beginTxn (xactListLen + 1), .row 5 1 true]) := by
    intro s1 a1 hs1 hR hc hfmt
    have hroom : a1.begun - a1.retired < xactListLen - 1 := by
      rw [hR, Nat.sub_self, xactListLen_eq]; decide
    have hrow : Upstream (a1.step (.beginTxn (xactListLen + 1))) (.row 5 1 true) := by
      simp only [Tracker.step, if_pos hroom, Upstream, push_begun, push_txns,
        Nat.add_sub_cancel, if_true]
      exact ⟨Nat.succ_pos _, rfl⟩
    obtain ⟨s2, hrun2, hs2, -⟩ := hs1.run_admits [.beginTxn (xactListLen + 1), .row 5 1 true]
      ⟨hc, trivial, ⟨hroom, fun h => absurd h (by decide)⟩, hrow, trivial,
        fun _ => by rw [hfmt]; decide, trivial⟩
    exact ⟨s2, hrun2, hs2⟩
  obtain ⟨s0, hrun0, hs0, hfmt0, -⟩ :=
    (@Reachable.init (fun _ _ => True) 0 true .json .log).run_admits
      [.beginTxn 0, .row 1 1 true, .deliver ⟨0, false⟩, .row 2 1 true, .row 3 1 true,
        .deliver ⟨0, false⟩, .commitTxn 4 0, .deliver ⟨0, false⟩] (by decide)
  obtain ⟨s1, hrun1, hs1, hB, hR, hc, hfmt1, -⟩ :=
    hs0.rowless_run xactListLen (by decide) (fun _ => by decide)
  obtain ⟨s2, hrun2, hs2⟩ := hopen hs1 (hR.trans hB.symm) (by rw [hB]; exact hc)
    (hfmt1.trans hfmt0)
  refine ⟨s2, by rw [run_append, run_append, hrun0, Option.some_bind, hrun1, Option.some_bind,
    hrun2], ?_⟩
  rw [Tracker.run_append, Tracker.run_append]
  exact ring_refines_queue hs2 1

/-- A delivery report reopens the empty buffer. The snapshot transaction's only message is
delivered before its commit, so `maybe_checkpoint` retires it; two more of its rows are sent, and
the next report's `maybe_checkpoint` walks the stale slots round to it and stops, leaving it in
the buffer again. -/
theorem delivery_reopens_empty_ring :
    ∃ s s' : ProducerContext,
      run (initProducer 0 true .json .log)
          [.beginTxn 0, .row 1 1 true, .deliver ⟨0, false⟩, .row 2 1 true, .row 3 1 true] =
        some s ∧
      xactListEmpty s = true ∧ step s (.deliver ⟨0, false⟩) = some s' ∧ xactListLength s' = 1 := by
  obtain ⟨s, hrun, hs, hfmt, hpol⟩ :=
    (@Reachable.init (fun _ _ => True) 0 true .json .log).run_admits
      [.beginTxn 0, .row 1 1 true, .deliver ⟨0, false⟩, .row 2 1 true, .row 3 1 true] (by decide)
  obtain ⟨s', hrun', hs', -⟩ := hs.run_admits [.deliver ⟨0, false⟩] (by rw [hfmt, hpol]; decide)
  refine ⟨s, s', hrun, ?_, by simpa [run] using hrun', ?_⟩
  · rw [xactListEmpty_iff, hs.length_eq]
    decide
  · rw [hs'.length_eq]
    decide

end BottledWater
