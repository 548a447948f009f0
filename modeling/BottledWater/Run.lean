import BottledWater.Send

/-! Runs of the producer: lists of events, in which a transaction begins or commits, a row's
`send_kafka_msg` hands its message to librdkafka or fails, or librdkafka reports a delivery. In an
event the callbacks meet no backpressure. This loses no state (`callback_run`): whatever the
callbacks meet, a callback that returns leaves the producer in a state a list of events reaches,
since the reports delivered inside a send's `backpressure` commute with the enqueue of its own
message. -/

namespace BottledWater

/-- An event of a producer run. -/
inductive Event
  | beginTxn (xid : Nat)
  | commitTxn (walPos xid : Nat)
  | row (walPos relid : Nat) (sent : Bool)
  | deliver (r : DeliveryReport)
  deriving DecidableEq, Repr

/-- The state a callback returns in; `none` if it exits. -/
def Outcome.returned {α : Type} : Outcome α → Option ProducerContext
  | .done _ s => some s
  | .exit _ _ => none

/-- A row event's `send_kafka_msg` meets a known relation and a producer that accepts the message
at once (`sent`), or an unknown relation. -/
def rowEnv (sent : Bool) : SendEnv := ⟨sent, 0, true, true, 0, [.ok], []⟩

/-- One event on the producer; `none` when the process exits or the event cannot happen. -/
def step (s : ProducerContext) : Event → Option ProducerContext
  | .beginTxn xid => (onBeginTxn [] xid s).bind Outcome.returned
  | .commitTxn walPos xid => (onCommitTxn walPos xid s).returned
  | .row walPos relid sent => (sendKafkaMsg (rowEnv sent) walPos relid s).bind Outcome.returned
  | .deliver r => (onDeliverMsg r s).bind Outcome.returned

/-- A run of events from `s`. -/
def run (s : ProducerContext) : List Event → Option ProducerContext
  | [] => some s
  | e :: es => (step s e).bind fun s' => run s' es

theorem run_append (s : ProducerContext) (es es' : List Event) :
    run s (es ++ es') = (run s es).bind fun s' => run s' es' := by
  induction es generalizing s with
  | nil => rfl
  | cons e es ih =>
      simp only [List.cons_append, run]
      cases step s e <;> simp [ih]

theorem run_cons_eq {s s1 s' : ProducerContext} {e : Event} {es : List Event}
    (h1 : step s e = some s1) (h2 : run s1 es = some s') : run s (e :: es) = some s' := by
  simp [run, h1, h2]

theorem waitWhileFull_nil (s : ProducerContext) :
    waitWhileFull [] s = if xactListFull s then none else some (.done () s) := by
  rw [waitWhileFull]

/-- Spec of a `beginTxn` event: the snapshot check passes, the buffer is not full, and the head
advances to a fresh slot. -/
theorem step_beginTxn {s s' : ProducerContext} {xid : Nat} :
    step s (.beginTxn xid) = some s' ↔
      (xid = 0 → s.xactTail.val = 0 ∧ xactListEmpty s = true) ∧ xactListFull s = false ∧
        s' = beginXact xid s := by
  simp only [step, onBeginTxn]
  by_cases hx : xid = 0 ∧ ¬(s.xactTail.val = 0 ∧ xactListEmpty s = true)
  · rw [if_pos hx]
    simp only [Option.some_bind, Outcome.returned]
    constructor
    · intro h
      cases h
    · rintro ⟨h, -, -⟩
      exact absurd (h hx.1) hx.2
  · rw [if_neg hx, waitWhileFull_nil]
    have hsnap : xid = 0 → s.xactTail.val = 0 ∧ xactListEmpty s = true := by
      intro h0
      by_contra hc
      exact hx ⟨h0, hc⟩
    cases hfull : xactListFull s
    · simp only [Bool.false_eq_true, if_false, Option.some_bind, Outcome.returned,
        Option.some.injEq]
      exact ⟨fun h => ⟨hsnap, trivial, h.symm⟩, fun h => h.2.2.symm⟩
    · simp

theorem step_commitTxn {s s' : ProducerContext} {walPos xid : Nat} :
    step s (.commitTxn walPos xid) = some s' ↔
      xid = (s.xactList s.xactHead).xid ∧ s' = maybeCheckpoint (setCommitLsn walPos s) := by
  simp only [step, onCommitTxn]
  split <;> simp_all [Outcome.returned, eq_comm]

/-- Spec of a `row` event: the head slot's counters rise, and the message is handed over if it was
sent. -/
theorem step_row {s s' : ProducerContext} {walPos relid : Nat} {sent : Bool} :
    step s (.row walPos relid sent) = some s' ↔
      (sent = true → s.outputFormat ≠ .undefined) ∧
        s' = if sent then enqueue ⟨walPos, relid, s.xactHead⟩ (bumpHead s) else bumpHead s := by
  cases sent <;> cases hf : s.outputFormat <;>
    simp [step, sendKafkaMsg, produceLoop, rowEnv, hf, enqueueLoop, errnoQueueFull, enobufs, runLoopCalls,
      Outcome.returned, eq_comm]

/-- Spec of a `deliver` event: the report is for a message librdkafka holds, a failed delivery is
only logged, the message's slot loses a pending event and `maybe_checkpoint` runs. -/
theorem step_deliver {s s' : ProducerContext} {r : DeliveryReport} :
    step s (.deliver r) = some s' ↔
      ∃ envelope, s.inFlight[r.index]? = some envelope ∧
        (r.err = false ∨ s.errorPolicy = .log) ∧
        s' = maybeCheckpoint (decrementPending envelope.xact
          { s with inFlight := s.inFlight.eraseIdx r.index }) := by
  simp only [step, onDeliverMsg]
  cases henv : s.inFlight[r.index]? with
  | none => simp
  | some envelope =>
      cases hr : r.err <;> cases hp : s.errorPolicy <;>
        simp [handleError, hp, Outcome.returned, eq_comm]

theorem checkpointLoop_inFlight (l : List MsgEnvelope) : ∀ (n : Nat) (s : ProducerContext),
    checkpointLoop n { s with inFlight := l } =
      (checkpointLoop n s).map fun s' => { s' with inFlight := l }
  | 0, _ => rfl
  | n + 1, s => by
      have hr : retireTail { s with inFlight := l } = { retireTail s with inFlight := l } := rfl
      have he : xactListEmpty { retireTail s with inFlight := l } = xactListEmpty (retireTail s) :=
        rfl
      simp only [checkpointLoop, hr, he]
      by_cases hc : checkpointable (s.xactList s.xactTail) = true
      · by_cases hemp : xactListEmpty (retireTail s) = true
        · simp only [hc, hemp, if_true, Option.map_some']
        · simp only [hc, hemp, if_true, if_false]
          exact checkpointLoop_inFlight l n (retireTail s)
      · simp only [hc, Bool.false_eq_true, if_false, Option.map_some']

theorem maybeCheckpoint_inFlight (l : List MsgEnvelope) (s : ProducerContext) :
    maybeCheckpoint { s with inFlight := l } = { maybeCheckpoint s with inFlight := l } := by
  simp only [maybeCheckpoint, checkpointLoop_inFlight]
  cases checkpointLoop xactListLen s <;> rfl

@[simp] theorem maybeCheckpoint_inFlight_eq (s : ProducerContext) :
    (maybeCheckpoint s).inFlight = s.inFlight := by
  obtain ⟨p, -, -, -, h⟩ := maybeCheckpoint_spec s
  rw [h, retireTail_iterate_inFlight]

@[simp] theorem maybeCheckpoint_outputFormat (s : ProducerContext) :
    (maybeCheckpoint s).outputFormat = s.outputFormat := by
  obtain ⟨p, -, -, -, h⟩ := maybeCheckpoint_spec s
  rw [h, retireTail_iterate_outputFormat]

@[simp] theorem maybeCheckpoint_errorPolicy (s : ProducerContext) :
    (maybeCheckpoint s).errorPolicy = s.errorPolicy := by
  obtain ⟨p, -, -, -, h⟩ := maybeCheckpoint_spec s
  rw [h, retireTail_iterate_errorPolicy]

theorem step_config {s s' : ProducerContext} {e : Event} (h : step s e = some s') :
    s'.outputFormat = s.outputFormat ∧ s'.errorPolicy = s.errorPolicy := by
  cases e with
  | beginTxn xid => obtain ⟨-, -, rfl⟩ := step_beginTxn.1 h; exact ⟨rfl, rfl⟩
  | commitTxn walPos xid =>
      obtain ⟨-, rfl⟩ := step_commitTxn.1 h
      simp only [maybeCheckpoint_outputFormat, maybeCheckpoint_errorPolicy]
      exact ⟨rfl, rfl⟩
  | row walPos relid sent =>
      obtain ⟨-, rfl⟩ := step_row.1 h
      cases sent <;> exact ⟨rfl, rfl⟩
  | deliver r =>
      obtain ⟨envelope, -, -, rfl⟩ := step_deliver.1 h
      simp only [maybeCheckpoint_outputFormat, maybeCheckpoint_errorPolicy]
      exact ⟨rfl, rfl⟩

/-- A report for a message held before another is enqueued has the same effect after it. -/
theorem step_deliver_enqueue {s s' : ProducerContext} {r : DeliveryReport} (e : MsgEnvelope)
    (h : step s (.deliver r) = some s') : step (enqueue e s) (.deliver r) = some (enqueue e s') := by
  obtain ⟨envelope, henv, herr, rfl⟩ := step_deliver.1 h
  have hi : r.index < s.inFlight.length := by
    by_contra hc
    rw [List.getElem?_eq_none (by omega)] at henv
    cases henv
  refine step_deliver.2 ⟨envelope, ?_, herr, ?_⟩
  · simp only [enqueue, List.getElem?_append_left hi, henv]
  · simp only [enqueue, List.eraseIdx_append_of_lt_length hi, maybeCheckpoint_inFlight_eq,
      decrementPending_inFlight]
    exact (maybeCheckpoint_inFlight _ _).symm

theorem run_deliver_enqueue (e : MsgEnvelope) :
    ∀ {rs : List DeliveryReport} {s s' : ProducerContext},
      run s (rs.map .deliver) = some s' →
        run (enqueue e s) (rs.map .deliver) = some (enqueue e s')
  | [], s, s', h => by simp only [List.map_nil, run, Option.some.injEq] at h ⊢; rw [h]
  | r :: rs, s, s', h => by
      simp only [List.map_cons, run] at h
      cases hs : step s (.deliver r) with
      | none => simp [hs] at h
      | some s1 =>
          rw [hs, Option.some_bind] at h
          exact run_cons_eq (step_deliver_enqueue e hs) (run_deliver_enqueue e h)

theorem rdKafkaPoll_run : ∀ {rs : List DeliveryReport} {s s' : ProducerContext} {u : Unit},
    rdKafkaPoll rs s = some (.done u s') → run s (rs.map .deliver) = some s'
  | [], s, s', u, h => by
      simp only [rdKafkaPoll, Option.some.injEq, Outcome.done.injEq] at h
      simp [run, h.2]
  | r :: rs, s, s', u, h => by
      simp only [rdKafkaPoll] at h
      split at h
      · rename_i s1 hr
        exact run_cons_eq (by simp [step, hr, Outcome.returned]) (rdKafkaPoll_run h)
      · rename_i o hne
        exact (hne u s' h).elim

theorem backpressure_run {p : Poll} {s s' : ProducerContext} {u : Unit}
    (h : backpressure p s = some (.done u s')) : run s (p.reports.map .deliver) = some s' := by
  unfold backpressure at h
  split at h
  · rename_i s1 hpoll
    have hs : s1 = s' := by
      split at h
      · cases h
      · split at h
        · cases h
        · simp only [Option.some.injEq, Outcome.done.injEq] at h
          exact h.2
    subst hs
    exact rdKafkaPoll_run hpoll
  · rename_i o hne
    exact (hne u s' h).elim

theorem waitWhileFull_run : ∀ {polls : List Poll} {s s' : ProducerContext} {u : Unit},
    waitWhileFull polls s = some (.done u s') →
      xactListFull s' = false ∧ ∃ rs : List DeliveryReport, run s (rs.map .deliver) = some s'
  | polls, s, s', u, h => by
      unfold waitWhileFull at h
      split at h
      · rename_i hfull
        split at h
        · cases h
        · rename_i p ps
          split at h
          · rename_i s1 hb
            obtain ⟨hnf, rs, hrun⟩ := waitWhileFull_run h
            refine ⟨hnf, p.reports ++ rs, ?_⟩
            rw [List.map_append, run_append, backpressure_run hb, Option.some_bind, hrun]
          · rename_i o hne
            exact (hne u s' h).elim
      · rename_i hfull
        simp only [Option.some.injEq, Outcome.done.injEq] at h
        rw [← h.2]
        exact ⟨by simpa using hfull, [], rfl⟩

/-- A returning `on_begin_txn` is delivery events followed by a `beginTxn` event. -/
theorem onBeginTxn_run {polls : List Poll} {xid : Nat} {s s' : ProducerContext} {ret : Int}
    (h : onBeginTxn polls xid s = some (.done ret s')) :
    ∃ rs : List DeliveryReport, run s (rs.map .deliver ++ [.beginTxn xid]) = some s' := by
  unfold onBeginTxn at h
  split at h
  · cases h
  · rename_i hcheck
    split at h
    · rename_i s1 hw
      simp only [Option.some.injEq, Outcome.done.injEq] at h
      obtain ⟨hnf, rs, hrun⟩ := waitWhileFull_run hw
      have hsnap : xid = 0 → s1.xactTail.val = 0 ∧ xactListEmpty s1 = true := by
        intro h0
        have hs := not_and.1 (fun hc => hcheck hc) h0
        rw [not_not] at hs
        have hnotfull : xactListFull s = false := by
          rw [xactListFull, beq_eq_false_iff_ne, xactListEmpty_iff.1 hs.2, xactListLen_eq]
          decide
        unfold waitWhileFull at hw
        rw [if_neg (by simp [hnotfull])] at hw
        simp only [Option.some.injEq, Outcome.done.injEq] at hw
        rw [← hw.2]
        exact hs
      refine ⟨rs, ?_⟩
      rw [run_append, hrun, Option.some_bind]
      exact run_cons_eq (step_beginTxn.2 ⟨hsnap, hnf, h.2.symm⟩) rfl
    · cases h
    · cases h

/-- The calls of the enqueue loop amount to handing the envelope over as often as
`rd_kafka_produce` accepted it, followed by delivery events. -/
theorem runLoopCalls_run (e : MsgEnvelope) {calls : List LoopCall} :
    ∀ {polls : List Poll} {s s' : ProducerContext} {u : Unit},
      runLoopCalls e calls polls s = some (.done u s') →
        ∃ rs : List DeliveryReport,
          run ((enqueue e)^[calls.count (.produce true)] s) (rs.map .deliver) = some s' := by
  induction calls with
  | nil =>
      intro polls s s' u h
      simp only [runLoopCalls, Option.some.injEq, Outcome.done.injEq] at h
      exact ⟨[], by simp [run, h.2]⟩
  | cons c calls ih =>
      intro polls s s' u h
      cases c with
      | produce accepted =>
          cases accepted
          · obtain ⟨rs, hrun⟩ := ih h
            exact ⟨rs, by simpa [List.count_cons] using hrun⟩
          · obtain ⟨rs, hrun⟩ := ih h
            exact ⟨rs, by simpa [List.count_cons, Function.iterate_succ_apply] using hrun⟩
      | freeVal =>
          obtain ⟨rs, hrun⟩ := ih h
          exact ⟨rs, by simpa [List.count_cons] using hrun⟩
      | freeKey =>
          obtain ⟨rs, hrun⟩ := ih h
          exact ⟨rs, by simpa [List.count_cons] using hrun⟩
      | backpressure =>
          cases polls with
          | nil => simp [runLoopCalls] at h
          | cons p polls =>
              simp only [runLoopCalls] at h
              split at h
              · rename_i s1 hb
                obtain ⟨rs, hrun⟩ := ih h
                have hpre : ∀ k : Nat, run ((enqueue e)^[k] s) (p.reports.map .deliver) =
                    some ((enqueue e)^[k] s1) := by
                  intro k
                  induction k with
                  | zero => exact backpressure_run hb
                  | succ k ihk =>
                      rw [Function.iterate_succ_apply', Function.iterate_succ_apply']
                      exact run_deliver_enqueue e ihk
                refine ⟨p.reports ++ rs, ?_⟩
                rw [List.map_append, run_append, hpre]
                simpa [List.count_cons] using hrun
              · rename_i o hne
                exact (hne u s' h).elim

/-- The enqueue loop hands the message over once if `send_kafka_msg` returns `0`, and never
otherwise. -/
theorem enqueueLoop_count {key val : Bool} :
    ∀ {errno : Int} {attempts : List ProduceResult} {calls : List LoopCall} {ret : Int},
      enqueueLoop key val errno attempts = some (calls, ret) →
        calls.count (.produce true) = if ret = 0 then 1 else 0
  | _, [], _, _, h => by simp [enqueueLoop] at h
  | errno, .ok :: rs, calls, ret, h => by
      simp only [enqueueLoop] at h
      split at h <;> simp at h <;> cases key <;> simp [← h.1, ← h.2]
  | errno, .err e :: rs, calls, ret, h => by
      simp only [enqueueLoop] at h
      split at h
      · obtain ⟨⟨calls', ret'⟩, hrec, heq⟩ := Option.map_eq_some'.1 h
        simp only [Prod.mk.injEq] at heq
        rw [← heq.1, ← heq.2]
        simpa [List.count_cons] using enqueueLoop_count hrec
      · simp at h
        rw [← h.1, ← h.2]
        cases key <;> cases val <;> simp

/-- Whatever `rd_kafka_produce` answers, the enqueue loop releases each encoded buffer exactly
once: the key is freed once if there is one, and the value is freed once if the loop fails and
handed to librdkafka with `RD_KAFKA_MSG_F_FREE` once if it succeeds. -/
theorem enqueueLoop_releases {key val : Bool} :
    ∀ {errno : Int} {attempts : List ProduceResult} {calls : List LoopCall} {ret : Int},
      enqueueLoop key val errno attempts = some (calls, ret) →
        calls.count .freeKey = (if key then 1 else 0) ∧
          calls.count .freeVal = (if val ∧ ret ≠ 0 then 1 else 0) ∧
          calls.count (.produce true) = (if ret = 0 then 1 else 0)
  | _, [], _, _, h => by simp [enqueueLoop] at h
  | errno, .ok :: rs, calls, ret, h => by
      have hcount := enqueueLoop_count h
      simp only [enqueueLoop] at h
      split at h <;> simp at h <;> obtain ⟨rfl, rfl⟩ := h <;>
        exact ⟨by cases key <;> simp, by cases key <;> simp, hcount⟩
  | errno, .err e :: rs, calls, ret, h => by
      have hcount := enqueueLoop_count h
      simp only [enqueueLoop] at h
      split at h
      · obtain ⟨calls', hrec, rfl⟩ : ∃ calls', enqueueLoop key val e rs = some (calls', ret) ∧
            .produce false :: .backpressure :: calls' = calls := by simpa using h
        obtain ⟨hk, hv, -⟩ := enqueueLoop_releases hrec
        exact ⟨by simpa [List.count_cons] using hk, by simpa [List.count_cons] using hv, hcount⟩
      · simp at h
        obtain ⟨rfl, rfl⟩ := h
        exact ⟨by cases key <;> cases val <;> simp, by cases key <;> cases val <;> simp, hcount⟩

/-- One full queue, then a success. -/
theorem enqueueLoop_releases_retry :
    ∃ calls ret, enqueueLoop true true 0 [.err enobufs, .ok] = some (calls, ret) ∧
      calls.count .freeKey = (if true then 1 else 0) ∧
        calls.count .freeVal = (if true ∧ ret ≠ 0 then 1 else 0) ∧
        calls.count (.produce true) = (if ret = 0 then 1 else 0) :=
  ⟨_, _, rfl, @enqueueLoop_releases true true 0 [.err enobufs, .ok] _ _ rfl⟩

/-- The enqueue loop of a returning `send_kafka_msg`: the envelope is handed over once if it
returns `0`, never otherwise, and delivery events follow. -/
theorem produceLoop_run {env : SendEnv} {e : MsgEnvelope} {s s' : ProducerContext} {ret : Int}
    (h : produceLoop env e s = some (.done ret s')) :
    ∃ rs : List DeliveryReport,
      run ((enqueue e)^[if ret = 0 then 1 else 0] s) (rs.map .deliver) = some s' := by
  unfold produceLoop at h
  split at h
  · cases h
  · rename_i calls ret' hloop
    split at h
    · rename_i s1 hcalls
      simp only [Option.some.injEq, Outcome.done.injEq] at h
      obtain ⟨rfl, rfl⟩ := h
      obtain ⟨rs, hrun⟩ := runLoopCalls_run _ hcalls
      rw [enqueueLoop_count hloop] at hrun
      exact ⟨rs, hrun⟩
    · cases h
    · cases h

/-- A returning `send_kafka_msg` is a `row` event, sent exactly when it returns `0`, followed by
the delivery events of its `backpressure` calls. -/
theorem sendKafkaMsg_run {env : SendEnv} {walPos relid : Nat} {s s' : ProducerContext} {ret : Int}
    (h : sendKafkaMsg env walPos relid s = some (.done ret s')) :
    ∃ rs : List DeliveryReport,
      run s (.row walPos relid (ret == 0) :: rs.map .deliver) = some s' := by
  unfold sendKafkaMsg at h
  cases hfound : env.tableFound
  · simp only [hfound, Bool.not_false, if_true, Option.some.injEq, Outcome.done.injEq] at h
    obtain ⟨rfl, rfl⟩ := h
    exact ⟨[], run_cons_eq (step_row.2 ⟨by simp, rfl⟩) rfl⟩
  · simp only [hfound, Bool.not_true, Bool.false_eq_true, if_false, bumpHead_outputFormat] at h
    have hf : s.outputFormat ≠ .undefined := by
      intro hu
      simp [hu] at h
    have hbranch : (if env.encodeErr ≠ 0 then some (.done env.encodeErr (bumpHead s))
        else produceLoop env ⟨walPos, relid, s.xactHead⟩ (bumpHead s)) = some (.done ret s') := by
      cases hfmt : s.outputFormat <;> simp only [hfmt] at h hf ⊢ <;> first | exact h | exact absurd rfl hf
    have hrow : ∀ sent : Bool, step s (.row walPos relid sent) =
        some (if sent then enqueue ⟨walPos, relid, s.xactHead⟩ (bumpHead s) else bumpHead s) :=
      fun _ => step_row.2 ⟨fun _ => hf, rfl⟩
    by_cases herr : env.encodeErr ≠ 0
    · rw [if_pos herr] at hbranch
      simp only [Option.some.injEq, Outcome.done.injEq] at hbranch
      obtain ⟨rfl, rfl⟩ := hbranch
      exact ⟨[], run_cons_eq (hrow _) (by simp [herr, run])⟩
    · rw [if_neg herr] at hbranch
      obtain ⟨rs, hrun⟩ := produceLoop_run hbranch
      refine ⟨rs, run_cons_eq (hrow _) ?_⟩
      by_cases h0 : ret = 0 <;> simpa [h0] using hrun

/-- A call into the producer from outside: a callback of the frame reader with whatever it
meets, or the `rd_kafka_poll` of the main loop. -/
inductive Callback
  | beginTxn (polls : List Poll) (xid : Nat)
  | commitTxn (walPos xid : Nat)
  | insertRow (env : SendEnv) (walPos relid : Nat)
  | updateRow (env : SendEnv) (walPos relid : Nat)
  | deleteRow (env : SendEnv) (walPos relid : Nat) (hasKey : Bool)
  | keepalive (syncPending : Int)
  | poll (reports : List DeliveryReport)

/-- The state a call returns in; `none` if the process exits or the call does not return. -/
def callback (s : ProducerContext) : Callback → Option ProducerContext
  | .beginTxn polls xid => (onBeginTxn polls xid s).bind Outcome.returned
  | .commitTxn walPos xid => (onCommitTxn walPos xid s).returned
  | .insertRow env walPos relid => (onInsertRow env walPos relid s).bind Outcome.returned
  | .updateRow env walPos relid => (onUpdateRow env walPos relid s).bind Outcome.returned
  | .deleteRow env walPos relid hasKey =>
    (onDeleteRow env walPos relid hasKey s).bind Outcome.returned
  | .keepalive _ => some s
  | .poll reports => (rdKafkaPoll reports s).bind Outcome.returned

theorem sendKafkaMsg_returned_run {env : SendEnv} {walPos relid : Nat} {s s' : ProducerContext}
    (h : (sendKafkaMsg env walPos relid s).bind Outcome.returned = some s') :
    ∃ es, run s es = some s' := by
  obtain ⟨o, ho, hr⟩ := Option.bind_eq_some.1 h
  cases o with
  | done ret s1 =>
      cases hr
      obtain ⟨rs, hrun⟩ := sendKafkaMsg_run ho
      exact ⟨_, hrun⟩
  | exit status s1 => cases hr

/-- Every state the callbacks can leave the producer in, whatever they meet, is reached by a run
of events. -/
theorem callback_run {s s' : ProducerContext} {c : Callback} (h : callback s c = some s') :
    ∃ es, run s es = some s' := by
  cases c with
  | beginTxn polls xid =>
      obtain ⟨o, ho, hr⟩ := Option.bind_eq_some.1 h
      cases o with
      | done ret s1 =>
          cases hr
          obtain ⟨rs, hrun⟩ := onBeginTxn_run ho
          exact ⟨_, hrun⟩
      | exit status s1 => cases hr
  | commitTxn walPos xid => exact ⟨[.commitTxn walPos xid], by simpa [run, step] using h⟩
  | insertRow env walPos relid => exact sendKafkaMsg_returned_run h
  | updateRow env walPos relid => exact sendKafkaMsg_returned_run h
  | deleteRow env walPos relid hasKey =>
      cases hasKey
      · simp only [callback, onDeleteRow, Bool.false_eq_true, if_false, Option.some_bind,
          Outcome.returned, Option.some.injEq] at h
        exact ⟨[], by simp [run, h]⟩
      · exact sendKafkaMsg_returned_run h
  | keepalive _ =>
      simp only [callback, Option.some.injEq] at h
      exact ⟨[], by simp [run, h]⟩
  | poll reports =>
      obtain ⟨o, ho, hr⟩ := Option.bind_eq_some.1 h
      cases o with
      | done u s1 =>
          cases hr
          exact ⟨_, rdKafkaPoll_run ho⟩
      | exit status s1 => cases hr

/-- A row whose first `rd_kafka_produce` meets a full queue. -/
example :
    ∃ s', callback (initProducer 0 true .json .log)
        (.insertRow ⟨true, 0, true, true, 0, [.err enobufs, .ok], [⟨[], false, false⟩,
          ⟨[], false, false⟩]⟩ 1 1) = some s' ∧
      ∃ es, run (initProducer 0 true .json .log) es = some s' :=
  ⟨_, rfl, callback_run (c := .insertRow ⟨true, 0, true, true, 0, [.err enobufs, .ok],
    [⟨[], false, false⟩, ⟨[], false, false⟩]⟩ 1 1) rfl⟩

end BottledWater
