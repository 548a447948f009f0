import BottledWater.Accounting
import BottledWater.Checkpointing

/-! Delivery reports. librdkafka calls `on_deliver_msg` in the order the brokers acknowledge,
which need not be the order the messages were produced in; what `maybe_checkpoint` leaves does not
depend on it (`deliveries_any_order`, from the two-report step `deliveries_commute`). A delivery
lowers one slot's `pending_events`, which the loop body of `maybe_checkpoint` never reads
(`retireTail_iterate_decrementPending`), and a run of the loop that stopped before a slot still
waiting is absorbed by the run after the next delivery to it
(`maybeCheckpoint_decrementPending_absorb`). Once librdkafka has reported every message, every
transaction has been checkpointed and `fsync_lsn` is the last commit position
(`deliveries_drain`). -/

namespace BottledWater

open Tracker

theorem eraseIdx_eraseIdx_of_lt {α : Type} (l : List α) {i j : Nat} (h : i < j) :
    (l.eraseIdx i).eraseIdx (j - 1) = (l.eraseIdx j).eraseIdx i := by
  apply List.ext_getElem?
  intro n
  simp only [List.getElem?_eraseIdx]
  split_ifs <;> first | rfl | omega

/-! ### A delivery and the loop of `maybe_checkpoint` -/

theorem slotAt_decrementPending (i : Fin xactListLen) (s : ProducerContext) :
    slotAt (decrementPending i s) = slotAt s := rfl

theorem decrementPending_xactList_of_ne {i j : Fin xactListLen} (s : ProducerContext)
    (h : j ≠ i) : (decrementPending i s).xactList j = s.xactList j :=
  Function.update_noteq h _ _

theorem retireTail_decrementPending (i : Fin xactListLen) (s : ProducerContext) :
    retireTail (decrementPending i s) = decrementPending i (retireTail s) := by
  by_cases h : s.xactTail = i
  · subst h
    simp [retireTail, decrementPending, committedSnapshot]
  · simp [retireTail, decrementPending, Function.update_noteq h]

theorem retireTail_iterate_decrementPending (k : Nat) (i : Fin xactListLen)
    (s : ProducerContext) :
    retireTail^[k] (decrementPending i s) = decrementPending i (retireTail^[k] s) :=
  Function.Commute.iterate_left (fun s => retireTail_decrementPending i s) k s

theorem decrementPending_comm (i j : Fin xactListLen) (s : ProducerContext) :
    decrementPending i (decrementPending j s) = decrementPending j (decrementPending i s) := by
  by_cases h : i = j
  · rw [h]
  · simp only [decrementPending, Function.update_noteq h, Function.update_noteq (Ne.symm h)]
    rw [Function.update_comm h]

theorem maybeCheckpoint_retireTail {s : ProducerContext}
    (hc : checkpointable (s.xactList s.xactTail) = true)
    (hne : xactListEmpty (retireTail s) = false) :
    maybeCheckpoint (retireTail s) = maybeCheckpoint s := by
  obtain ⟨q, hq, hret, hstop, hM⟩ := maybeCheckpoint_spec (retireTail s)
  have hb := checkpointBound_retireTail hne
  have hle := checkpointBound_le s
  have hN : xactListLen = maxInFlightTransactions + 1 := rfl
  have hloop : checkpointLoop xactListLen s =
      checkpointLoop maxInFlightTransactions (retireTail s) := by
    rw [hN, checkpointLoop, if_pos hc, if_neg (by rw [hne]; decide)]
  rw [hM, maybeCheckpoint, hloop, checkpointLoop_eq hq (by omega) hret hstop]
  rfl

theorem maybeCheckpoint_retireTail_iterate {s : ProducerContext} :
    ∀ {p : Nat}, p < xactListLength s →
      (∀ m < p, checkpointable (s.xactList (slotAt s m)) = true) →
        maybeCheckpoint (retireTail^[p] s) = maybeCheckpoint s
  | 0, _, _ => rfl
  | p + 1, hp, hret => by
      have hlt := xactListLength_lt s
      rw [Function.iterate_succ_apply', maybeCheckpoint_retireTail,
        maybeCheckpoint_retireTail_iterate (by omega) fun m hm => hret m (by omega)]
      · rw [retireTail_iterate_xactList, retireTail_iterate_xactTail]
        exact hret p (by omega)
      · rw [xactListEmpty, beq_eq_false_iff_ne, ← Function.iterate_succ_apply' retireTail,
          xactListLength_retireTail_iterate (by omega)]
        rw [xactListLen_eq] at hlt ⊢
        omega

/-- A `maybe_checkpoint` run before a delivery to a live slot that is not checkpointable is
absorbed by the one run after it. -/
theorem maybeCheckpoint_decrementPending_absorb {s : ProducerContext} {o : Nat}
    (ho : o < xactListLength s) (hblk : checkpointable (s.xactList (slotAt s o)) = false) :
    maybeCheckpoint (decrementPending (slotAt s o) (maybeCheckpoint s)) =
      maybeCheckpoint (decrementPending (slotAt s o) s) := by
  obtain ⟨p, -, hret, -, hM⟩ := maybeCheckpoint_spec s
  have hlt := xactListLength_lt s
  have hpo : p ≤ o := by
    by_contra h
    rw [hret o (by omega)] at hblk
    cases hblk
  rw [hM, ← retireTail_iterate_decrementPending]
  refine maybeCheckpoint_retireTail_iterate (by rw [xactListLength_decrementPending]; omega)
    fun m hm => ?_
  have hne : slotAt s m ≠ slotAt s o := fun h => by
    have := slotAt_injective (by omega) (by omega) h
    omega
  rw [slotAt_decrementPending, decrementPending_xactList_of_ne _ hne]
  exact hret m (by omega)

theorem LiveOrHead.live_of_ne {s : ProducerContext} {x y : Fin xactListLen}
    (hx : LiveOrHead s x) (hy : LiveOrHead s y) (hxy : x ≠ y) :
    ∃ m < xactListLength s, x = slotAt s m := by
  rcases hx with hx | rfl
  · exact hx
  · rcases hy with ⟨m, hm, rfl⟩ | rfl
    · exact ⟨xactListLength s - 1, by omega, (slotAt_length_sub_one (by omega)).symm⟩
    · exact absurd rfl hxy

/-- Deliveries to two slots that are each live or the head and wait for them, each followed by
`maybe_checkpoint`, in either order. -/
theorem maybeCheckpoint_deliveries_comm {s : ProducerContext} {x y : Fin xactListLen}
    (hx : LiveOrHead s x) (hy : LiveOrHead s y) (hbx : checkpointable (s.xactList x) = false)
    (hby : checkpointable (s.xactList y) = false) :
    maybeCheckpoint (decrementPending y (maybeCheckpoint (decrementPending x s))) =
      maybeCheckpoint (decrementPending x (maybeCheckpoint (decrementPending y s))) := by
  by_cases hxy : x = y
  · rw [hxy]
  have absorb : ∀ {a b : Fin xactListLen}, a ≠ b → (∃ m < xactListLength s, b = slotAt s m) →
      checkpointable (s.xactList b) = false →
      maybeCheckpoint (decrementPending b (maybeCheckpoint (decrementPending a s))) =
        maybeCheckpoint (decrementPending b (decrementPending a s)) := by
    rintro a b hab ⟨m, hm, rfl⟩ hblk
    exact maybeCheckpoint_decrementPending_absorb (s := decrementPending a s) hm
      (by rwa [slotAt_decrementPending, decrementPending_xactList_of_ne _ (Ne.symm hab)])
  rw [absorb hxy (hy.live_of_ne hx (Ne.symm hxy)) hby,
    absorb (Ne.symm hxy) (hx.live_of_ne hy hxy) hbx, decrementPending_comm]

/-! ### Delivery reports in reachable states -/

/-- In every reachable state an envelope librdkafka holds points at a live slot or the head, and
that slot waits for it: its pending count is at least one. -/
theorem Reachable.envelope_blocks {P : Tracker → Event → Prop} {fsyncLsn : Nat}
    {takingSnapshot : Bool} {s : ProducerContext} {a : Tracker}
    (h : Reachable P fsyncLsn takingSnapshot s a) {envelope : MsgEnvelope}
    (henv : envelope ∈ s.inFlight) :
    LiveOrHead s envelope.xact ∧ checkpointable (s.xactList envelope.xact) = false := by
  obtain ⟨hi, hr⟩ := h.inv_refines
  obtain ⟨i, hi'⟩ := List.mem_iff_getElem?.1 henv
  obtain ⟨k, hk, hxk⟩ := hr.envelope_xact hi'
  have hmem := List.getElem?_mem hk
  obtain ⟨hkB, hlive⟩ := hi.envelope_live k hmem
  have hpos : 0 < a.envelopes.count k := List.count_pos_iff.2 hmem
  have hpend := hi.pending_eq k hkB
  rw [hxk, hr.slot_eq hi.toCore hkB hlive]
  refine ⟨hr.liveOrHead hi.toCore hkB hlive, ?_⟩
  cases hc : checkpointable (a.txns k).info
  · rfl
  · have := (checkpointable_iff.1 hc).1
    omega

theorem step_deliver_eq (s : ProducerContext) (r : DeliveryReport) :
    step s (.deliver r) = s.inFlight[r.index]?.bind fun envelope =>
      if r.err = false ∨ s.errorPolicy = .log then
        some (maybeCheckpoint (decrementPending envelope.xact
          { s with inFlight := s.inFlight.eraseIdx r.index }))
      else none := by
  simp only [step, onDeliverMsg]
  cases s.inFlight[r.index]? with
  | none => rfl
  | some envelope =>
      cases hr : r.err <;> cases hp : s.errorPolicy <;> simp [handleError, hp, Outcome.returned]

theorem run_deliver_deliver (s : ProducerContext) (r r' : DeliveryReport) :
    run s [.deliver r, .deliver r'] =
      s.inFlight[r.index]?.bind fun envelope =>
        (s.inFlight.eraseIdx r.index)[r'.index]?.bind fun envelope' =>
          if (r.err = false ∨ s.errorPolicy = .log) ∧ (r'.err = false ∨ s.errorPolicy = .log) then
            some (maybeCheckpoint (decrementPending envelope'.xact (maybeCheckpoint
              (decrementPending envelope.xact
                { s with inFlight := (s.inFlight.eraseIdx r.index).eraseIdx r'.index }))))
          else none := by
  simp only [run, step_deliver_eq]
  cases s.inFlight[r.index]? with
  | none => rfl
  | some envelope =>
      by_cases hc : r.err = false ∨ s.errorPolicy = .log
      · have key := maybeCheckpoint_inFlight ((s.inFlight.eraseIdx r.index).eraseIdx r'.index)
          (decrementPending envelope.xact { s with inFlight := s.inFlight.eraseIdx r.index })
        dsimp only at key
        simp only [Option.some_bind, hc, if_true, true_and, maybeCheckpoint_inFlight_eq,
          decrementPending_inFlight, ← key]
        simp only [maybeCheckpoint_errorPolicy, decrementPending_errorPolicy, Option.bind_some]
        rfl
      · simp [hc]

/-- Delivery reports for two messages have the same effect in either order: from every reachable
state, reporting the `i`-th message and then the `j`-th (by then at position `j - 1`), and
reporting the `j`-th and then the `i`-th, both exit or leave the same producer. -/
theorem deliveries_commute {P : Tracker → Event → Prop} {fsyncLsn : Nat} {takingSnapshot : Bool}
    {s : ProducerContext} {a : Tracker} (h : Reachable P fsyncLsn takingSnapshot s a) {i j : Nat}
    (hij : i < j) (err err' : Bool) :
    run s [.deliver ⟨i, err⟩, .deliver ⟨j - 1, err'⟩] =
      run s [.deliver ⟨j, err'⟩, .deliver ⟨i, err⟩] := by
  have hji : (s.inFlight.eraseIdx i)[j - 1]? = s.inFlight[j]? := by
    rw [List.getElem?_eraseIdx_of_ge _ _ _ (by omega), Nat.sub_add_cancel (by omega)]
  rw [run_deliver_deliver, run_deliver_deliver]
  simp only [hji, List.getElem?_eraseIdx_of_lt _ _ _ hij, eraseIdx_eraseIdx_of_lt _ hij, and_comm]
  cases hj : s.inFlight[j]? with
  | none => cases s.inFlight[i]? <;> rfl
  | some ej =>
      cases hi : s.inFlight[i]? with
      | none => rfl
      | some ei =>
          have hbi := h.envelope_blocks (List.getElem?_mem hi)
          have hbj := h.envelope_blocks (List.getElem?_mem hj)
          simp only [Option.some_bind]
          rw [maybeCheckpoint_deliveries_comm
            (s := { s with inFlight := (s.inFlight.eraseIdx j).eraseIdx i }) hbi.1 hbj.1 hbi.2 hbj.2]

theorem step_deliver_of_accepted {s s' : ProducerContext} {r : DeliveryReport}
    (h : step s (.deliver r) = some s') : step s (.deliver ⟨r.index, false⟩) = some s' := by
  obtain ⟨envelope, henv, -, rfl⟩ := step_deliver.1 h
  exact step_deliver.2 ⟨envelope, henv, .inl rfl, rfl⟩

theorem step_deliver_length {s s' : ProducerContext} {r : DeliveryReport}
    (h : step s (.deliver r) = some s') : s'.inFlight.length + 1 = s.inFlight.length := by
  obtain ⟨envelope, henv, -, rfl⟩ := step_deliver.1 h
  have := (List.getElem?_eq_some_iff.1 henv).1
  simp only [maybeCheckpoint_inFlight_eq, decrementPending_inFlight, List.length_eraseIdx,
    if_pos this]
  omega

/-- Reports for all `n` messages librdkafka holds, accepted in any order, leave the producer as
successful reports in the order the messages were produced do. The first report either is for
the first message, or is moved behind a report for it by `deliveries_commute`. -/
theorem run_deliveries_front {P : Tracker → Event → Prop} {fsyncLsn : Nat}
    {takingSnapshot : Bool} (hP : ∀ a r, P a (.deliver r)) (n : Nat) :
    ∀ {rs : List DeliveryReport} {s s' : ProducerContext} {a : Tracker},
      Reachable P fsyncLsn takingSnapshot s a → rs.length = n → s.inFlight.length = n →
      run s (rs.map .deliver) = some s' →
        run s (List.replicate n (.deliver ⟨0, false⟩)) = some s' := by
  induction n with
  | zero =>
      intro rs s s' a _ hrs _ hrun
      rwa [List.length_eq_zero.1 hrs] at hrun
  | succ n ih =>
      intro rs s s' a h hrs hn hrun
      obtain ⟨⟨i, err⟩, rest, rfl⟩ := List.exists_cons_of_length_eq_add_one hrs
      obtain ⟨s1, hs1, hrest⟩ := Option.bind_eq_some.1 hrun
      have hfront := ih (h.step (e := .deliver ⟨i, err⟩) trivial (hP _ _) hs1)
        (by simpa using hrs) (by have := step_deliver_length hs1; omega) hrest
      cases i with
      | zero => exact run_cons_eq (step_deliver_of_accepted hs1) hfront
      | succ i =>
          obtain ⟨envelope, henv, -⟩ := step_deliver.1 hs1
          have hi := (List.getElem?_eq_some_iff.1 henv).1
          obtain ⟨m, rfl⟩ : ∃ m, n = m + 1 := ⟨n - 1, by simp at hi; omega⟩
          obtain ⟨s2, hs2, hrest2⟩ := Option.bind_eq_some.1 hfront
          have hswap := deliveries_commute h (Nat.succ_pos i) false err
          rw [run_cons_eq hs1 (run_cons_eq hs2 (rfl : run s2 [] = some s2))] at hswap
          obtain ⟨t1, ht1, ht1'⟩ := Option.bind_eq_some.1 hswap
          obtain ⟨s2', hs2', hs2''⟩ := Option.bind_eq_some.1 ht1'
          cases hs2''
          have hrun1 :
              run t1 ((⟨i, err⟩ :: List.replicate m ⟨0, false⟩).map .deliver) = some s' := by
            rw [List.map_cons, List.map_replicate]
            exact run_cons_eq hs2' hrest2
          exact run_cons_eq ht1 (ih (h.step (e := .deliver ⟨0, false⟩) trivial (hP _ _) ht1)
            (by simp) (by have := step_deliver_length ht1; omega) hrun1)

/-- From every reachable state, reports for all the messages librdkafka holds, in whatever order
the brokers acknowledge them and with whatever error flags, leave the producer, if it accepts
them all, exactly as successful reports in the order the messages were produced do: the
checkpoint does not depend on the order of acknowledgements. -/
theorem deliveries_any_order {P : Tracker → Event → Prop} {fsyncLsn : Nat}
    {takingSnapshot : Bool} {s s' : ProducerContext} {a : Tracker}
    (h : Reachable P fsyncLsn takingSnapshot s a) (hP : ∀ a r, P a (.deliver r))
    {rs : List DeliveryReport} (hlen : rs.length = s.inFlight.length)
    (hrun : run s (rs.map .deliver) = some s') :
    run s (List.replicate s.inFlight.length (.deliver ⟨0, false⟩)) = some s' :=
  run_deliveries_front hP _ h hlen rfl hrun

/-- Two transactions with one message each, acknowledged last first. -/
theorem deliveries_any_order_reversed :
    ∃ s, run (initProducer 0 false .json .log)
        [.beginTxn 1, .row 1 1 true, .commitTxn 2 1, .beginTxn 3, .row 3 1 true] = some s ∧
      [(⟨1, true⟩ : DeliveryReport), ⟨0, false⟩].length = s.inFlight.length ∧
      ∃ s', run s ([(⟨1, true⟩ : DeliveryReport), ⟨0, false⟩].map .deliver) = some s' ∧
        run s (List.replicate s.inFlight.length (.deliver ⟨0, false⟩)) = some s' := by
  obtain ⟨s, hrun, hs, hfmt, hpol⟩ :=
    (@Reachable.init (fun _ _ => True) 0 false .json .log).run_admits
      [.beginTxn 1, .row 1 1 true, .commitTxn 2 1, .beginTxn 3, .row 3 1 true] (by decide)
  have hlen : [(⟨1, true⟩ : DeliveryReport), ⟨0, false⟩].length = s.inFlight.length := by
    have := congrArg List.length hs.inv_refines.2.inFlight_eq
    rw [List.length_map, List.length_map] at this
    rw [this]
    decide
  obtain ⟨s', hrun', -⟩ := hs.run_admits ([(⟨1, true⟩ : DeliveryReport), ⟨0, false⟩].map .deliver)
    (by rw [hfmt, hpol]; decide)
  exact ⟨s, hrun, hlen, s', hrun',
    deliveries_any_order hs (fun _ _ => trivial) hlen hrun'⟩

/-! ### Draining librdkafka -/

theorem Tracker.step_deliver_begun (a : Tracker) (r : DeliveryReport) :
    (a.step (.deliver r)).begun = a.begun := by
  simp only [Tracker.step]
  split <;> simp

theorem Tracker.step_deliver_commit (a : Tracker) (r : DeliveryReport) (k : Nat) :
    ((a.step (.deliver r)).txns k).committed = (a.txns k).committed ∧
      ((a.step (.deliver r)).txns k).info.commitLsn = (a.txns k).info.commitLsn := by
  simp only [Tracker.step]
  split
  · exact ⟨rfl, rfl⟩
  · simp only [checkpoint_txns, acknowledge_txns]
    split_ifs with hk
    · subst hk; exact ⟨rfl, rfl⟩
    · exact ⟨rfl, rfl⟩

/-- Reporting the first message librdkafka holds, as often as it holds messages, is a run that
empties librdkafka and changes no transaction's commit. -/
theorem Reachable.deliver_front {P : Tracker → Event → Prop} {fsyncLsn : Nat}
    {takingSnapshot : Bool} (hP : ∀ a r, P a (.deliver r)) (n : Nat) :
    ∀ {s : ProducerContext} {a : Tracker}, Reachable P fsyncLsn takingSnapshot s a →
      s.inFlight.length = n →
      ∃ s' a', run s (List.replicate n (.deliver ⟨0, false⟩)) = some s' ∧
        Reachable P fsyncLsn takingSnapshot s' a' ∧ s'.inFlight = [] ∧ a'.begun = a.begun ∧
        ∀ k, (a'.txns k).committed = (a.txns k).committed ∧
          (a'.txns k).info.commitLsn = (a.txns k).info.commitLsn := by
  induction n with
  | zero =>
      intro s a h hn
      exact ⟨s, a, rfl, h, List.eq_nil_of_length_eq_zero hn, rfl, fun _ => ⟨rfl, rfl⟩⟩
  | succ n ih =>
      intro s a h hn
      obtain ⟨s1, h1⟩ : ∃ s1, BottledWater.step s (.deliver ⟨0, false⟩) = some s1 :=
        ⟨_, step_deliver.2 ⟨_, List.getElem?_eq_getElem (by dsimp only; omega), .inl rfl, rfl⟩⟩
      obtain ⟨s', a', hrun, h', hnil, hB, hcommit⟩ :=
        ih (h.step (e := .deliver ⟨0, false⟩) trivial (hP _ _) h1)
          (by have := step_deliver_length h1; omega)
      refine ⟨s', a', run_cons_eq h1 hrun, h', hnil, by rw [hB, Tracker.step_deliver_begun],
        fun k => ?_⟩
      rw [(hcommit k).1, (hcommit k).2]
      exact Tracker.step_deliver_commit a _ k

/-- Once the most recent transaction has committed and been retired, the checkpoint is its commit
position. -/
def Tracker.FsyncAtLast (a : Tracker) : Prop :=
  a.retired = a.begun → 0 < a.begun → (a.txns (a.begun - 1)).committed = true →
    a.fsyncLsn = (a.txns (a.begun - 1)).info.commitLsn

theorem checkpoint_fsyncLsn_last {a : Tracker} (hle : a.retired ≤ a.begun) (hB : 0 < a.begun)
    (h : (checkpoint a).retired = a.begun) :
    (checkpoint a).fsyncLsn = (a.txns (a.begun - 1)).info.commitLsn := by
  by_cases hlt : a.retired < a.begun
  · rw [checkpoint_fsyncLsn hlt, if_neg (by omega), h]
  rw [checkpoint_retired, if_neg hlt] at h
  split_ifs at h with hc
  · rw [stale_last a hB] at hc
    simp only [checkpoint_eq, if_neg hlt, stale_last a hB, hc, if_true, retireRecords_fsyncLsn,
      if_neg (Nat.pos_iff_ne_zero.1 xactListLen_pos)]
  · omega

theorem FsyncAtLast.checkpoint {a : Tracker} (hle : a.retired ≤ a.begun) :
    (checkpoint a).FsyncAtLast := fun hR hB _ => by
  rw [checkpoint_begun] at hR hB ⊢
  rw [checkpoint_txns, checkpoint_fsyncLsn_last hle hB hR]

theorem Tracker.Inv.fsyncAtLast_step {a : Tracker} (hi : Inv a) (hf : a.FsyncAtLast) (e : Event) :
    (a.step e).FsyncAtLast := by
  cases e with
  | beginTxn xid =>
      simp only [Tracker.step]
      split_ifs
      · intro _ _ hc
        simp [fresh] at hc
      · exact hf
  | commitTxn walPos xid => exact FsyncAtLast.checkpoint hi.retired_le
  | row walPos relid sent =>
      intro hR hB hc
      simp only [Tracker.step, recordRow_begun, recordRow_retired, recordRow_fsyncLsn,
        recordRow_txns, if_true] at hR hB hc ⊢
      exact hf hR hB hc
  | deliver r =>
      simp only [Tracker.step]
      split
      · exact hf
      · exact FsyncAtLast.checkpoint hi.retired_le

theorem Reachable.fsyncAtLast {P : Tracker → Event → Prop} {fsyncLsn : Nat}
    {takingSnapshot : Bool} {s : ProducerContext} {a : Tracker}
    (h : Reachable P fsyncLsn takingSnapshot s a) : a.FsyncAtLast := by
  induction h with
  | init => intro _ hB; exact absurd hB (lt_irrefl 0)
  | step hreach _ _ _ ih => exact hreach.inv_refines.1.fsyncAtLast_step ih _

/-- With positive commit positions and every row's message handed to librdkafka: once the most
recent transaction has committed, reporting every message librdkafka holds as delivered is
accepted, empties the buffer, and moves `fsync_lsn` to the most recent transaction's commit
position. Nothing is left for `on_keepalive` to wait for. -/
theorem deliveries_drain {fsyncLsn : Nat} {takingSnapshot : Bool} {s : ProducerContext}
    {a : Tracker}
    (h : Reachable (fun _ e => PositiveCommit e ∧ SendsSucceed e) fsyncLsn takingSnapshot s a)
    (hcommitted : 0 < a.begun → (a.txns (a.begun - 1)).committed = true) :
    ∃ s', run s (List.replicate s.inFlight.length (.deliver ⟨0, false⟩)) = some s' ∧
      s'.inFlight = [] ∧ xactListEmpty s' = true ∧
      (0 < a.begun → s'.fsyncLsn = (s.xactList s.xactHead).commitLsn) := by
  obtain ⟨s', a', hrun, h', hnil, hB, hcommit⟩ :=
    h.deliver_front (fun _ _ => ⟨trivial, trivial⟩) s.inFlight.length rfl
  obtain ⟨hi, hr⟩ := h'.inv_refines
  have hq := h'.sent_positive
  have hE : a'.envelopes = [] := by
    have := congrArg List.length hr.inFlight_eq
    rw [hnil, List.length_map, List.length_map] at this
    exact List.eq_nil_of_length_eq_zero this.symm
  have hlast : 0 < a'.begun → (a'.txns (a'.begun - 1)).committed = true := fun hpos => by
    rw [hB, (hcommit _).1]
    exact hcommitted (by omega)
  have hRB : a'.retired = a'.begun := by
    by_contra hne
    have hlt : a'.retired < a'.begun := by have := hi.retired_le; omega
    have hcm : (a'.txns a'.retired).committed = true := by
      by_cases hk : a'.retired + 1 < a'.begun
      · exact hi.committed_of_lt _ hk
      · rw [show a'.retired = a'.begun - 1 by omega]
        exact hlast (by omega)
    have hc : checkpointable (a'.txns a'.retired).info = true := by
      refine checkpointable_iff.2 ⟨?_, .inl ((hq _ hlt).2 hcm)⟩
      rw [hi.pending_eq _ hlt, hE, (hq _ hlt).1]
      rfl
    rw [hi.front_blocked hlt hc] at hcm
    cases hcm
  refine ⟨s', hrun, hnil, by rw [xactListEmpty_iff, h'.length_eq, hRB, Nat.sub_self],
    fun hpos => ?_⟩
  obtain ⟨hi0, hr0⟩ := h.inv_refines
  rw [hr.fsyncLsn_eq, h'.fsyncAtLast hRB (by omega) (hlast (by omega)), hB,
    hr0.head_eq_slotOf hpos, hr0.slot_eq hi0.toCore (by omega) (.inr (by omega)), (hcommit _).2]

/-- The snapshot transaction has committed with two messages in librdkafka. -/
theorem deliveries_drain_committed :
    ∃ s, run (initProducer 0 true .json .log)
        [.beginTxn 0, .row 1 1 true, .row 2 1 true, .commitTxn 5 0] = some s ∧
      let a := (init 0 true).run [.beginTxn 0, .row 1 1 true, .row 2 1 true, .commitTxn 5 0]
      ∃ s', run s (List.replicate s.inFlight.length (.deliver ⟨0, false⟩)) = some s' ∧
        s'.inFlight = [] ∧ xactListEmpty s' = true ∧
        (0 < a.begun → s'.fsyncLsn = (s.xactList s.xactHead).commitLsn) := by
  obtain ⟨s, hrun, hs, -⟩ :=
    (@Reachable.init (fun _ e => PositiveCommit e ∧ SendsSucceed e) 0 true .json .log).run_admits
      [.beginTxn 0, .row 1 1 true, .row 2 1 true, .commitTxn 5 0] (by decide)
  exact ⟨s, hrun, deliveries_drain hs (by decide)⟩

end BottledWater
