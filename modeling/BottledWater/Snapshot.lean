import BottledWater.Checkpointing

/-! The snapshot. A run that starts with `taking_snapshot` set streams the snapshot as its first
transaction, xid 0, and `maybe_checkpoint` clears the flag when it retires the snapshot's slot
after its commit. When the snapshot's own rows are handed to librdkafka and its commit position is
positive, the flag is clear exactly when the snapshot has committed and librdkafka holds none of
its messages, so `exit_nicely` drops the replication slot exactly when the snapshot is not
complete (`snapshot_flag_done`); a failed snapshot row or a snapshot commit at 0 keeps the flag set
for good (`snapshot_flag_kept`). `on_begin_txn` accepts xid 0 again once the retired transactions
are all those begun and a multiple of 1001 (`snapshot_begin_accepted_iff`,
`snapshot_check_passes_after_wrap`). -/

namespace BottledWater

open Tracker

namespace Tracker

/-- What a run whose first transaction alone is the snapshot gives of its `k`-th transaction: xid
0 for the first alone, and for the first no failed send and a positive commit position once
committed. -/
def SnapshotTxn (k : Nat) (t : Txn) : Prop :=
  (k = 0 → t.failed = 0 ∧ (t.committed = true → 0 < t.info.commitLsn)) ∧ (t.info.xid = 0 ↔ k = 0)

theorem SnapshotTxn.commitAt {k walPos : Nat} {t : Txn} (h : SnapshotTxn k t)
    (hw : k = 0 → 0 < walPos) : SnapshotTxn k (commitAt walPos t) :=
  ⟨fun hk => ⟨(h.1 hk).1, fun _ => hw hk⟩, h.2⟩

/-- The snapshot flag as `maybe_checkpoint` leaves it: set until the first transaction has been
retired after its commit. -/
def SnapshotFlag (a : Tracker) : Prop :=
  a.takingSnapshot = !(decide (0 < a.retired) && (a.txns 0).committed)

variable {a : Tracker}

theorem committedSnapshot_eq (hc : Core a) (hq : ∀ k < a.begun, SnapshotTxn k (a.txns k))
    {k : Nat} (hk : k < a.begun) :
    committedSnapshot (a.txns k).info = (decide (k = 0) && (a.txns k).committed) := by
  obtain ⟨h0, hx⟩ := hq k hk
  cases hcm : (a.txns k).committed with
  | false => simp [committedSnapshot, hc.uncommitted_lsn k hk hcm]
  | true =>
      by_cases hk0 : k = 0
      · subst hk0
        simp [committedSnapshot, (h0 rfl).2 hcm, hx.2 rfl]
      · simp [committedSnapshot, hk0, mt hx.1 hk0]

theorem all_not_committedSnapshot (hc : Core a) (hq : ∀ k < a.begun, SnapshotTxn k (a.txns k))
    {p : Nat} (hp : a.retired + p ≤ a.begun) :
    ((List.range p).all fun i => !committedSnapshot (a.queued i)) =
      !(decide (a.retired = 0 ∧ 0 < p) && (a.txns 0).committed) := by
  have key : ∀ i < p, committedSnapshot (a.queued i) = true ↔
      a.retired + i = 0 ∧ (a.txns 0).committed = true := fun i hi => by
    rw [queued, committedSnapshot_eq hc hq (by omega), Bool.and_eq_true, decide_eq_true_eq]
    exact and_congr_right fun h => by rw [h]
  rw [Bool.eq_iff_iff, List.all_eq_true]
  simp only [List.mem_range, Bool.not_eq_true', Bool.not_eq_eq_eq_not, Bool.not_true,
    Bool.and_eq_false_iff, decide_eq_false_iff_not, ← Bool.not_eq_true, Bool.and_eq_true,
    decide_eq_true_eq]
  constructor
  · rintro h ⟨⟨h0, hp0⟩, hc0⟩
    exact h 0 hp0 ((key 0 hp0).2 ⟨by omega, hc0⟩)
  · rintro h i hi hcs
    obtain ⟨hRi, hc0⟩ := (key i hi).1 hcs
    exact h ⟨⟨by omega, by omega⟩, hc0⟩

theorem Core.snapshotFlag_checkpoint_pop (hc : Core a)
    (hq : ∀ k < a.begun, SnapshotTxn k (a.txns k)) (hlt : a.retired < a.begun)
    (hf : SnapshotFlag a) : SnapshotFlag a.checkpoint := by
  have hp := popCount_le (fun i => checkpointable (a.queued i)) (a.begun - a.retired)
  have hflag : a.checkpoint.takingSnapshot = (a.takingSnapshot &&
      (List.range (popCount (fun i => checkpointable (a.queued i)) (a.begun - a.retired))).all
        fun i => !committedSnapshot (a.queued i)) := by
    rw [checkpoint_eq, if_pos hlt]; rfl
  unfold SnapshotFlag at hf ⊢
  rw [hflag, checkpoint_txns, checkpoint_retired, if_pos hlt,
    all_not_committedSnapshot hc hq (by omega), hf]
  rcases Nat.eq_zero_or_pos a.retired with h0 | h0
  · simp [h0]
  · simp [h0, h0.ne']

theorem Core.snapshotFlag_checkpoint_walk (hc : Core a)
    (hq : ∀ k < a.begun, SnapshotTxn k (a.txns k)) (hB : a.begun = 1) (hR : a.retired = 1)
    (hf : a.takingSnapshot = true) : SnapshotFlag a.checkpoint := by
  have hstale : ∀ n ≤ xactListLen - 1,
      ((List.range n).all fun i => !committedSnapshot (a.stale i)) = true := fun n hn =>
    List.all_eq_true.2 fun i hi => by
      rw [List.mem_range] at hi
      rw [stale, if_pos (by omega)]
      rfl
  have hlast : a.stale (xactListLen - 1) = (a.txns 0).info := by rw [stale_last a (by omega), hB]
  have hcs := committedSnapshot_eq hc hq (k := 0) (by omega)
  have hN : List.range xactListLen = List.range (xactListLen - 1) ++ [xactListLen - 1] :=
    List.range_succ _
  unfold SnapshotFlag
  rw [checkpoint_txns, checkpoint_retired, if_neg (by omega), checkpoint_eq, if_neg (by omega)]
  simp only [retireRecords_takingSnapshot, hlast, hf, hB]
  split_ifs with hck
  · rw [hN, List.all_append, hstale _ le_rfl, List.all_cons, List.all_nil, hlast, hcs]
    simp
  · rw [hstale _ le_rfl]
    rfl

theorem SnapshotFlag.of_eq {b : Tracker} (hf : SnapshotFlag a)
    (hs : b.takingSnapshot = a.takingSnapshot) (hR : b.retired = a.retired)
    (hc : 0 < a.retired → (b.txns 0).committed = (a.txns 0).committed) : SnapshotFlag b := by
  unfold SnapshotFlag at hf ⊢
  rw [hs, hf, hR]
  rcases Nat.eq_zero_or_pos a.retired with h0 | h0
  · simp [h0]
  · rw [hc h0]

theorem Inv.retired_snapshot (hi : Inv a) (hq : ∀ k < a.begun, SnapshotTxn k (a.txns k))
    (hf : SnapshotFlag a) (hR : a.retired = a.begun) (hB : 0 < a.begun)
    (hopen : (a.txns (a.begun - 1)).committed = false ∨
      checkpointable (a.txns (a.begun - 1)).info = false) :
    a.begun = 1 ∧ a.takingSnapshot = true := by
  have hlast := hi.retired_open_snapshot hR hB hopen
  have hB1 : a.begun = 1 := by have := (hq _ (by omega)).2.1 hlast.2; omega
  have hc0 : (a.txns 0).committed = false := by simpa [hB1] using hlast.1
  unfold SnapshotFlag at hf
  exact ⟨hB1, by rw [hf, hc0, Bool.and_false]; rfl⟩

theorem Inv.snapshotFlag_step (hi : Inv a) (hq : ∀ k < a.begun, SnapshotTxn k (a.txns k))
    (hf : SnapshotFlag a) {e : Event} (hup : Upstream a e)
    (hp : SnapshotFirst a e ∧ SnapshotSent a e) : SnapshotFlag (a.step e) := by
  have hle := hi.retired_le
  cases e with
  | beginTxn xid =>
      simp only [Tracker.step]
      split_ifs
      · exact hf.of_eq rfl rfl fun _ => by rw [push_txns, if_neg (by omega)]
      · exact hf
  | commitTxn walPos xid =>
      obtain ⟨hB, hopen, -⟩ := hup
      have hq₁ : ∀ k < a.begun,
          SnapshotTxn k ((modify (a.begun - 1) (commitAt walPos) a).txns k) := fun k hk => by
        rw [modify_txns]
        split_ifs with h1
        · subst h1; exact (hq _ hk).commitAt fun h0 => (hp.2 (by omega)).1
        · exact hq k hk
      by_cases hlt : a.retired < a.begun
      · exact (hi.commitLast walPos).snapshotFlag_checkpoint_pop hq₁ hlt
          (hf.of_eq rfl rfl fun _ => by rw [modify_txns, if_neg (by omega)])
      · have hR : a.retired = a.begun := by omega
        obtain ⟨hB1, hflag⟩ := hi.retired_snapshot hq hf hR hB (.inl hopen)
        exact (hi.commitLast walPos).snapshotFlag_checkpoint_walk hq₁ hB1 (hR.trans hB1) hflag
  | row walPos relid sent =>
      refine hf.of_eq rfl rfl fun _ => ?_
      rw [Tracker.step, recordRow_txns]
      split_ifs with h0
      · rw [← h0]; rfl
      · rfl
  | deliver r =>
      simp only [Tracker.step]
      cases hE : a.envelopes[r.index]? with
      | none => exact hf
      | some k =>
          have hq₁ : ∀ j < a.begun, SnapshotTxn j ((acknowledge r.index k a).txns j) :=
            fun j hj => by
              rw [acknowledge_txns]
              split_ifs with h1
              · subst h1; exact hq _ hj
              · exact hq j hj
          by_cases hlt : a.retired < a.begun
          · refine (hi.acknowledge hE).snapshotFlag_checkpoint_pop hq₁ hlt
              (hf.of_eq rfl rfl fun _ => ?_)
            rw [acknowledge_txns]
            split_ifs with h0
            · subst h0; rfl
            · rfl
          · obtain ⟨hkB, hlive⟩ := hi.envelope_live k (List.getElem?_mem hE)
            have hck : checkpointable (a.txns (a.begun - 1)).info = false :=
              Bool.eq_false_iff.2 fun hck => hi.not_mem_of_checkpointable (by omega)
                (by rwa [show k = a.begun - 1 by omega]) (List.getElem?_mem hE)
            have hR : a.retired = a.begun := by omega
            obtain ⟨hB1, hflag⟩ := hi.retired_snapshot hq hf hR (by omega) (.inr hck)
            exact (hi.acknowledge hE).snapshotFlag_checkpoint_walk hq₁ hB1 (hR.trans hB1) hflag

end Tracker

/-- Along every run whose first transaction alone is the snapshot, with its own rows handed over
and a positive commit position, each transaction keeps `SnapshotTxn`. -/
theorem Reachable.snapshotTxn {fsyncLsn : Nat} {takingSnapshot : Bool} {s : ProducerContext}
    {a : Tracker}
    (h : Reachable (fun a e => SnapshotFirst a e ∧ SnapshotSent a e) fsyncLsn takingSnapshot s a) :
    ∀ k < a.begun, SnapshotTxn k (a.txns k) :=
  h.txns_forall SnapshotTxn
    (fun _ _ hp => ⟨fun _ => ⟨rfl, fun hc => absurd hc Bool.false_ne_true⟩, hp.1⟩)
    (fun a _ _ _ _ hp ht => ⟨fun hk => by
      cases (hp.2 (by omega)).2
      simpa [sendRow] using ht.1 hk, ht.2⟩)
    (fun a _ _ _ hp ht => ht.commitAt fun _ => (hp.2 (by omega)).1) (fun _ _ ht => ht)

/-- Along every such run started with `taking_snapshot` set, the flag keeps its account. -/
theorem Reachable.snapshotFlag {fsyncLsn : Nat} {s : ProducerContext} {a : Tracker}
    (h : Reachable (fun a e => SnapshotFirst a e ∧ SnapshotSent a e) fsyncLsn true s a) :
    SnapshotFlag a := by
  induction h with
  | init => rfl
  | step hreach hup hp _ ih =>
      exact hreach.inv_refines.1.snapshotFlag_step hreach.snapshotTxn ih hup hp

/-- Along every run started with `taking_snapshot` set whose first transaction alone is the
snapshot, with the snapshot's rows handed to librdkafka and its commit position positive, the flag
is clear exactly when the snapshot has committed and librdkafka holds none of its messages; so
`exit_nicely` drops the replication slot exactly when the status is non-zero and the snapshot is
not complete. -/
theorem snapshot_flag_done {fsyncLsn : Nat} {s : ProducerContext} {a : Tracker}
    (h : Reachable (fun a e => SnapshotFirst a e ∧ SnapshotSent a e) fsyncLsn true s a) :
    (s.takingSnapshot = false ↔ 0 < a.begun ∧ a.Done 0) ∧
      ∀ status : Int, exitNicelyDropsSlot s status = true ↔
        status ≠ 0 ∧ ¬(0 < a.begun ∧ a.Done 0) := by
  obtain ⟨hi, hr⟩ := h.inv_refines
  have hq := h.snapshotTxn
  have hf : a.takingSnapshot = _ := h.snapshotFlag
  have hflag : s.takingSnapshot = false ↔ 0 < a.retired ∧ (a.txns 0).committed = true := by
    rw [hr.takingSnapshot_eq, hf]
    simp
  have hdone : 0 < a.retired ∧ (a.txns 0).committed = true ↔ 0 < a.begun ∧ a.Done 0 := by
    have hle := hi.retired_le
    constructor
    · rintro ⟨hR, hc⟩
      refine ⟨by omega, hc, hi.not_mem_of_checkpointable (by omega) ?_⟩
      by_cases h1 : 1 < a.begun
      · exact hi.retired_checkpointable 0 hR h1
      · rcases hi.last_retired (by omega) (by omega) with hck | ⟨hopen, -⟩
        · rwa [show a.begun - 1 = 0 by omega] at hck
        · rw [show a.begun - 1 = 0 by omega, hc] at hopen
          cases hopen
    · rintro ⟨hB, hc, hE⟩
      refine ⟨Nat.pos_of_ne_zero fun hR => ?_, hc⟩
      have hck : checkpointable (a.txns a.retired).info = true := by
        rw [hR, checkpointable_iff, hi.pending_eq 0 hB, ((hq 0 hB).1 rfl).1, List.count_eq_zero.2 hE]
        exact ⟨rfl, .inr ((hq 0 hB).2.2 rfl)⟩
      have := hi.front_blocked (by omega) hck
      rw [hR, hc] at this
      cases this
  refine ⟨hflag.trans hdone, fun status => ?_⟩
  rw [exitNicelyDropsSlot, ← hdone, ← hflag]
  cases s.takingSnapshot <;> simp

/-- The snapshot's row is delivered after its commit, which clears the flag; a row of the next
transaction fails to send, which the flag does not depend on. -/
theorem snapshot_flag_done_complete :
    ∃ s, run (initProducer 0 true .json .log)
        [.beginTxn 0, .row 1 1 true, .commitTxn 2 0, .beginTxn 1, .row 3 1 false,
          .deliver ⟨0, false⟩] = some s ∧
      let a := (init 0 true).run
        [.beginTxn 0, .row 1 1 true, .commitTxn 2 0, .beginTxn 1, .row 3 1 false,
          .deliver ⟨0, false⟩]
      (s.takingSnapshot = false ↔ 0 < a.begun ∧ a.Done 0) ∧
        ∀ status : Int, exitNicelyDropsSlot s status = true ↔
          status ≠ 0 ∧ ¬(0 < a.begun ∧ a.Done 0) := by
  obtain ⟨s, hrun, hs, -⟩ :=
    (@Reachable.init (fun a e => SnapshotFirst a e ∧ SnapshotSent a e) 0 true .json .log).run_admits
      [.beginTxn 0, .row 1 1 true, .commitTxn 2 0, .beginTxn 1, .row 3 1 false,
        .deliver ⟨0, false⟩] (by decide)
  exact ⟨s, hrun, snapshot_flag_done hs⟩

/-- The flag stays set after the snapshot has completed: its row's send fails, which leaves its
`pending_events` at 1 for good; or it commits at position 0, which `maybe_checkpoint` does not
take for the snapshot's commit. -/
theorem snapshot_flag_kept :
    (∃ s : ProducerContext,
      run (initProducer 0 true .json .log) [.beginTxn 0, .row 1 1 false, .commitTxn 5 0] = some s ∧
        s.inFlight = [] ∧ s.takingSnapshot = true ∧ exitNicelyDropsSlot s 1 = true) ∧
    (∃ s : ProducerContext,
      run (initProducer 0 true .json .log) [.beginTxn 0, .commitTxn 0 0] = some s ∧
        s.inFlight = [] ∧ s.takingSnapshot = true ∧ exitNicelyDropsSlot s 1 = true) := by
  have key : ∀ es, Admits (fun _ _ => True) .json .log (init 0 true) es →
      ((init 0 true).run es).takingSnapshot = true → ((init 0 true).run es).envelopes = [] →
      ∃ s, run (initProducer 0 true .json .log) es = some s ∧ s.inFlight = [] ∧
        s.takingSnapshot = true ∧ exitNicelyDropsSlot s 1 = true := by
    intro es hadm hflag hnil
    obtain ⟨s, hrun, hs, -⟩ :=
      (@Reachable.init (fun _ _ => True) 0 true .json .log).run_admits es hadm
    have hr := hs.inv_refines.2
    have hin := hr.inFlight_eq
    rw [hnil, List.map_nil, List.map_eq_nil_iff] at hin
    have hf : s.takingSnapshot = true := hr.takingSnapshot_eq.trans hflag
    exact ⟨s, hrun, hin, hf, by rw [exitNicelyDropsSlot, hf]; rfl⟩
  exact ⟨key _ (by decide) (by decide) (by decide), key _ (by decide) (by decide) (by decide)⟩

/-- The producer runs `n` transactions without rows from its start, each retired at once. -/
theorem rowlessTxns_run (n : Nat) : ∃ s a,
    run (initProducer 0 true .json .log) (rowlessTxns n) = some s ∧
      Reachable (fun _ _ => True) 0 true s a ∧ a.begun = n ∧ a.retired = n ∧
      (0 < n → (a.txns (n - 1)).committed = true) ∧ s.outputFormat = .json ∧
      s.errorPolicy = .log := by
  obtain ⟨s, hrun, hs, hB, hR, hc, hfmt, hpol⟩ :=
    (@Reachable.init (fun _ _ => True) 0 true .json .log).rowless_run n rfl
      fun h => absurd h (lt_irrefl 0)
  have h0 : (init 0 true).begun = 0 := rfl
  rw [h0, Nat.zero_add] at hB hR hc
  exact ⟨s, _, hrun, hs, hB, hR, hc, hfmt, hpol⟩

/-- After 1001 transactions the tail is back at slot 0 on an empty buffer, and `on_begin_txn`
accepts a second snapshot. -/
theorem snapshot_check_passes_after_wrap :
    ∃ s s' : ProducerContext,
      run (initProducer 0 true .json .log) (rowlessTxns xactListLen) = some s ∧
        s.xactTail.val = 0 ∧ xactListEmpty s = true ∧ step s (.beginTxn 0) = some s' := by
  obtain ⟨s, a, hrun, hs, hB, hR, hc, -, -⟩ := rowlessTxns_run xactListLen
  obtain ⟨hi, hr⟩ := hs.inv_refines
  have hempty : xactListEmpty s = true := by
    rw [xactListEmpty_iff, hs.length_eq, hB, hR, Nat.sub_self]
  have htail : s.xactTail.val = 0 := by rw [hr.tail_eq, slotOf_val, hR, Nat.mod_self]
  obtain ⟨s', hs'⟩ := (step_iff_enabled hr hi (e := .beginTxn 0)
    (fun _ => by rw [hB]; exact hc xactListLen_pos)).2
    ⟨by rw [hB, hR, Nat.sub_self, xactListLen_eq]; decide,
      fun _ => ⟨by rw [hR, Nat.mod_self], by rw [hR, hB]⟩⟩
  exact ⟨s, s', hrun, htail, hempty, hs'⟩

/-- Along every run, `on_begin_txn` accepts xid 0 after the previous transaction's commit exactly
when every begun transaction has been retired and their number is a multiple of
`XACT_LIST_LEN`. -/
theorem snapshot_begin_accepted_iff {P : Tracker → Event → Prop} {fsyncLsn : Nat}
    {takingSnapshot : Bool} {s : ProducerContext} {a : Tracker}
    (h : Reachable P fsyncLsn takingSnapshot s a) (hup : Upstream a (.beginTxn 0)) :
    (∃ s', step s (.beginTxn 0) = some s') ↔
      a.retired % xactListLen = 0 ∧ a.retired = a.begun := by
  obtain ⟨hi, hr⟩ := h.inv_refines
  rw [step_iff_enabled hr hi hup]
  refine ⟨fun h => h.2 rfl, fun ⟨h0, h1⟩ => ⟨?_, fun _ => ⟨h0, h1⟩⟩⟩
  rw [h1, Nat.sub_self, xactListLen_eq]
  decide

/-- After 1001 transactions without rows the tail is back at slot 0 on an empty buffer. -/
theorem snapshot_begin_accepted_wrapped :
    ∃ s, run (initProducer 0 true .json .log) (rowlessTxns xactListLen) = some s ∧
      ((∃ s', step s (.beginTxn 0) = some s') ↔
        ((init 0 true).run (rowlessTxns xactListLen)).retired % xactListLen = 0 ∧
          ((init 0 true).run (rowlessTxns xactListLen)).retired =
            ((init 0 true).run (rowlessTxns xactListLen)).begun) := by
  obtain ⟨s, hrun, hs, hB, -, hc, -⟩ :=
    (@Reachable.init (fun _ _ => True) 0 true .json .log).rowless_run xactListLen rfl
      fun h => absurd h (lt_irrefl 0)
  exact ⟨s, hrun, snapshot_begin_accepted_iff hs fun h => by rw [hB] at h ⊢; exact hc h⟩

end BottledWater
