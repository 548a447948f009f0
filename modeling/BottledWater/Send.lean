import BottledWater.Callbacks
import Mathlib.Algebra.BigOperators.Group.List

/-! `send_kafka_msg` and the row callbacks that call it. The table mapper, the encoders and
`rd_kafka_produce` are outside this file; `SendEnv` holds what they answer. The enqueue loop's
control flow reads only the results of `rd_kafka_produce` and `errno`, so it is modelled as the
list of calls it makes (`enqueueLoop`), which `runLoopCalls` plays on the producer. The loop tests
`errno` also after a success, so a send that met `k ≥ 1` full queues calls `backpressure` `k + 1`
times (`enqueueLoop_stale_errno`); another failure ends it with the buffers freed
(`enqueueLoop_error`). The head slot's counters are raised before the table lookup, so a failed
send leaves them raised (`sendKafkaMsg_unknown_relid`). -/

namespace BottledWater

/-- The result of one `rd_kafka_produce`: `0`, leaving `errno` alone, or `-1` with `errno` set. -/
inductive ProduceResult
  | ok
  | err (errno : Int)
  deriving DecidableEq, Repr

/-- `ENOBUFS`, the `errno` that `rd_kafka_produce` sets when its queue is full. -/
def enobufs : Int := 105

/-- `rd_kafka_errno2err(errno) == RD_KAFKA_RESP_ERR__QUEUE_FULL`. -/
def errnoQueueFull (errno : Int) : Bool := errno == enobufs

/-- The calls the enqueue loop makes, in order. -/
inductive LoopCall
  | produce (accepted : Bool)
  | backpressure
  | freeVal
  | freeKey
  deriving DecidableEq, Repr

/-- The `while (!enqueued)` loop of `send_kafka_msg` and the `free(key)` after it, entered with
`errno` and given the results of successive `rd_kafka_produce` calls: the calls they make and the
value `send_kafka_msg` returns, or `none` if the results run out first. `key` and `val` say
whether the encoded buffers are non-`NULL`. -/
def enqueueLoop (key val : Bool) : Int → List ProduceResult → Option (List LoopCall × Int)
  | _, [] => none
  | errno, r :: rs =>
    let err : Int := match r with
      | .ok => 0
      | .err _ => -1
    let errno := match r with
      | .ok => errno
      | .err e => e
    let enqueued := err == 0
    if errnoQueueFull errno then
      if enqueued then some (.produce true :: .backpressure :: (if key then [.freeKey] else []), 0)
      else (enqueueLoop key val errno rs).map fun (calls, ret) =>
        (.produce false :: .backpressure :: calls, ret)
    else if err != 0 then
      some (.produce false :: ((if val then [.freeVal] else []) ++ (if key then [.freeKey] else [])),
        err)
    else some (.produce true :: (if key then [.freeKey] else []), 0)

def enqueue (envelope : MsgEnvelope) (s : ProducerContext) : ProducerContext :=
  { s with inFlight := s.inFlight ++ [envelope] }

/-- The effect of the enqueue loop's calls on the producer: an accepted `rd_kafka_produce` hands
over the envelope, each `backpressure` meets the next element of `polls`. -/
def runLoopCalls (envelope : MsgEnvelope) :
    List LoopCall → List Poll → ProducerContext → Option (Outcome Unit)
  | [], _, s => some (.done () s)
  | .produce true :: calls, polls, s => runLoopCalls envelope calls polls (enqueue envelope s)
  | .backpressure :: _, [], _ => none
  | .backpressure :: calls, p :: polls, s =>
    match backpressure p s with
    | some (.done _ s) => runLoopCalls envelope calls polls s
    | o => o
  | _ :: calls, polls, s => runLoopCalls envelope calls polls s

/-- What `send_kafka_msg` meets outside the producer: whether `table_mapper_lookup` finds the
relation, the return value of the encoder of the configured format and whether it produced a key
and a value buffer, `errno` on entry to the enqueue loop, the results of `rd_kafka_produce`, and
what each call of `backpressure` meets. -/
structure SendEnv where
  tableFound : Bool
  encodeErr : Int
  key : Bool
  val : Bool
  errno : Int
  attempts : List ProduceResult
  polls : List Poll

/-- `xact->recvd_events++; xact->pending_events++;` on the head slot. -/
def bumpHead (s : ProducerContext) : ProducerContext :=
  let xact := s.xactList s.xactHead
  let bumped :=
    { xact with recvdEvents := xact.recvdEvents + 1, pendingEvents := xact.pendingEvents + 1 }
  { s with xactList := Function.update s.xactList s.xactHead bumped }

/-- The enqueue loop of `send_kafka_msg` played on the producer, and the value it returns. -/
def produceLoop (env : SendEnv) (envelope : MsgEnvelope) (s : ProducerContext) :
    Option (Outcome Int) :=
  match enqueueLoop env.key env.val env.errno env.attempts with
  | none => none
  | some (calls, ret) =>
    match runLoopCalls envelope calls env.polls s with
    | some (.done _ s) => some (.done ret s)
    | some (.exit status s) => some (.exit status s)
    | none => none

/-- `send_kafka_msg`: the head slot's counters are raised first; an unknown relation, an encoder
error or a producer error other than a full queue then returns a non-zero value. -/
def sendKafkaMsg (env : SendEnv) (walPos relid : Nat) (s : ProducerContext) :
    Option (Outcome Int) :=
  let s := bumpHead s
  let envelope : MsgEnvelope := ⟨walPos, relid, s.xactHead⟩
  if !env.tableFound then some (.done 1 s)
  else
    match s.outputFormat with
    | .json | .avro =>
      if env.encodeErr ≠ 0 then some (.done env.encodeErr s) else produceLoop env envelope s
    | .undefined => some (.exit 1 s)

/-- `on_insert_row`. -/
def onInsertRow (env : SendEnv) (walPos relid : Nat) (s : ProducerContext) :
    Option (Outcome Int) :=
  sendKafkaMsg env walPos relid s

/-- `on_update_row`. -/
def onUpdateRow (env : SendEnv) (walPos relid : Nat) (s : ProducerContext) :
    Option (Outcome Int) :=
  sendKafkaMsg env walPos relid s

/-- `on_delete_row`: a delete on a table without a key is dropped. -/
def onDeleteRow (env : SendEnv) (walPos relid : Nat) (hasKey : Bool) (s : ProducerContext) :
    Option (Outcome Int) :=
  if hasKey then sendKafkaMsg env walPos relid s else some (.done 0 s)

@[simp] theorem bumpHead_xactHead (s : ProducerContext) : (bumpHead s).xactHead = s.xactHead := rfl

@[simp] theorem bumpHead_outputFormat (s : ProducerContext) :
    (bumpHead s).outputFormat = s.outputFormat := rfl

@[simp] theorem bumpHead_head_slot (s : ProducerContext) :
    (bumpHead s).xactList s.xactHead =
      { s.xactList s.xactHead with
        recvdEvents := (s.xactList s.xactHead).recvdEvents + 1
        pendingEvents := (s.xactList s.xactHead).pendingEvents + 1 } := by
  simp [bumpHead]

/-- A relation the table mapper does not know makes `send_kafka_msg` return `1` after it has
raised the head slot's `recvd_events` and `pending_events`, and no envelope is handed over. -/
theorem sendKafkaMsg_unknown_relid (env : SendEnv) (walPos relid : Nat) (s : ProducerContext)
    (hlookup : env.tableFound = false) :
    sendKafkaMsg env walPos relid s = some (.done 1 (bumpHead s)) ∧
      ((bumpHead s).xactList s.xactHead).recvdEvents =
        (s.xactList s.xactHead).recvdEvents + 1 ∧
      ((bumpHead s).xactList s.xactHead).pendingEvents =
        (s.xactList s.xactHead).pendingEvents + 1 ∧
      (bumpHead s).inFlight = s.inFlight := by
  simp [sendKafkaMsg, hlookup]
  rfl

/-- A row of an unknown relation at the start of a run. -/
theorem sendKafkaMsg_unknown_relid_init :
    sendKafkaMsg ⟨false, 0, true, true, 0, [.ok], []⟩ 1 1 (initProducer 0 true .json .log) =
        some (.done 1 (bumpHead (initProducer 0 true .json .log))) ∧
      ((bumpHead (initProducer 0 true .json .log)).xactList
          (initProducer 0 true .json .log).xactHead).recvdEvents =
        ((initProducer 0 true .json .log).xactList
          (initProducer 0 true .json .log).xactHead).recvdEvents + 1 ∧
      ((bumpHead (initProducer 0 true .json .log)).xactList
          (initProducer 0 true .json .log).xactHead).pendingEvents =
        ((initProducer 0 true .json .log).xactList
          (initProducer 0 true .json .log).xactHead).pendingEvents + 1 ∧
      (bumpHead (initProducer 0 true .json .log)).inFlight =
        (initProducer 0 true .json .log).inFlight :=
  sendKafkaMsg_unknown_relid _ 1 1 _ rfl

theorem enqueueLoop_queueFull (key val : Bool) (errno : Int) (k : Nat) (rs : List ProduceResult) :
    enqueueLoop key val errno (List.replicate (k + 1) (.err enobufs) ++ rs) =
      (enqueueLoop key val enobufs rs).map fun (calls, ret) =>
        ((List.replicate (k + 1) [LoopCall.produce false, .backpressure]).flatten ++ calls, ret) := by
  induction k generalizing errno with
  | zero => simp [enqueueLoop, errnoQueueFull]
  | succ k ih =>
      rw [List.replicate_succ, List.cons_append, enqueueLoop]
      simp only [errnoQueueFull, beq_self_eq_true, if_true]
      rw [ih]
      simp [Option.map_map, Function.comp_def, List.replicate_succ]

/-- `k ≥ 1` queue-full failures and then a success: `k + 1` attempts, the message handed over
once, and `backpressure` called `k + 1` times, since `errno` still reads `ENOBUFS` after the
success. -/
theorem enqueueLoop_stale_errno (key val : Bool) (errno : Int) {k : Nat} (hk : 0 < k)
    (rs : List ProduceResult) :
    ∃ calls, enqueueLoop key val errno (List.replicate k (.err enobufs) ++ .ok :: rs) =
        some (calls, 0) ∧
      calls.count (.produce true) = 1 ∧ calls.count (.produce false) = k ∧
      calls.count .backpressure = k + 1 := by
  obtain ⟨j, rfl⟩ : ∃ j, k = j + 1 := ⟨k - 1, by omega⟩
  rw [enqueueLoop_queueFull]
  refine ⟨_, by simp [enqueueLoop, errnoQueueFull]; rfl, ?_⟩
  cases key <;> simp [List.count_flatten, List.sum_replicate]

/-- The failing input: one full queue, then a success. -/
theorem enqueueLoop_stale_errno_once :
    ∃ calls, enqueueLoop true true 0 (List.replicate 1 (.err enobufs) ++ [.ok]) =
        some (calls, 0) ∧
      calls.count (.produce true) = 1 ∧ calls.count (.produce false) = 1 ∧
      calls.count .backpressure = 1 + 1 :=
  enqueueLoop_stale_errno true true 0 Nat.one_pos []

/-- After `k` queue-full failures, a failure other than a full queue ends the loop: the encoded
value and key are freed, and `send_kafka_msg` returns `-1` without handing the message over. -/
theorem enqueueLoop_error (key val : Bool) (errno : Int) (k : Nat) {e : Int} (he : e ≠ enobufs)
    (rs : List ProduceResult) :
    enqueueLoop key val errno (List.replicate k (.err enobufs) ++ .err e :: rs) =
      some ((List.replicate k [LoopCall.produce false, .backpressure]).flatten ++
        .produce false :: ((if val then [.freeVal] else []) ++ (if key then [.freeKey] else [])),
        -1) := by
  cases k with
  | zero => simp [enqueueLoop, errnoQueueFull, he]
  | succ k =>
      rw [enqueueLoop_queueFull]
      simp [enqueueLoop, errnoQueueFull, he]

/-- A failure with `errno` 1 after one full queue. -/
theorem enqueueLoop_error_once :
    enqueueLoop true true 0 (List.replicate 1 (.err enobufs) ++ [.err 1]) =
      some ((List.replicate 1 [LoopCall.produce false, .backpressure]).flatten ++
        .produce false :: ((if true then [.freeVal] else []) ++ (if true then [.freeKey] else [])),
        -1) :=
  enqueueLoop_error true true 0 1 (by decide) []

end BottledWater
