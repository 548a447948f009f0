import BottledWater.Checkpoint

/-! The transaction callbacks of `bottledwater.c` and the delivery side of the Kafka producer:
`on_begin_txn`, `on_commit_txn`, `on_deliver_msg`, `handle_error` and `backpressure`.

A callback either returns with the producer in some state, or reaches `exit_nicely` (directly or
through `fatal_error`), which ends the process; `Outcome` keeps the state it exits in, since
`exit_nicely` reads `taking_snapshot`. What the callbacks receive from outside (the reports a
`rd_kafka_poll` hands to `on_deliver_msg`, a shutdown signal, a failing keepalive) is an explicit
argument. A callback whose arguments run out before it returns (`on_begin_txn` still waiting on a
full buffer), or a report for a message librdkafka does not hold, gives `none`. Log calls have no
effect on the state and are left out; so are the positions that only feed them. -/

namespace BottledWater

/-- How a callback ends: it returns `ret` in state `s`, or it calls `exit_nicely` with `status`
in state `s`. -/
inductive Outcome (α : Type) where
  | done (ret : α) (s : ProducerContext)
  | exit (status : Int) (s : ProducerContext)

/-- A delivery report from librdkafka: the position of its message among the ones it holds, and
whether `msg->err` is set. -/
structure DeliveryReport where
  index : Nat
  err : Bool
  deriving DecidableEq, Repr

/-- What one call of `backpressure` meets: the reports its `rd_kafka_poll` delivers, whether
`received_shutdown_signal` is set, and whether `replication_stream_keepalive` fails. -/
structure Poll where
  reports : List DeliveryReport
  shutdown : Bool
  keepaliveErr : Bool
  deriving DecidableEq, Repr

/-- `handle_error`: under `ERROR_POLICY_LOG` the error is logged and the result is `0`; under
`ERROR_POLICY_EXIT`, and for an undefined policy, the process exits with status 1. -/
def handleError (s : ProducerContext) : Outcome Int :=
  match s.errorPolicy with
  | .log => .done 0 s
  | _ => .exit 1 s

/-- `envelope->xact->pending_events--`. -/
def decrementPending (i : Fin xactListLen) (s : ProducerContext) : ProducerContext :=
  let xact := s.xactList i
  let decremented := { xact with pendingEvents := xact.pendingEvents - 1 }
  { s with xactList := Function.update s.xactList i decremented }

/-- `on_deliver_msg`: the message leaves librdkafka; a failed delivery goes through
`handle_error`; unless that exits, the envelope's slot loses a pending event and
`maybe_checkpoint` runs. -/
def onDeliverMsg (r : DeliveryReport) (s : ProducerContext) : Option (Outcome Unit) :=
  match s.inFlight[r.index]? with
  | none => none
  | some envelope =>
    let held := { s with inFlight := s.inFlight.eraseIdx r.index }
    match (if r.err then handleError held else .done 0 held) with
    | .exit status s' => some (.exit status s')
    | .done _ s' => some (.done () (maybeCheckpoint (decrementPending envelope.xact s')))

/-- `rd_kafka_poll`: librdkafka calls `on_deliver_msg` for each report in turn. -/
def rdKafkaPoll : List DeliveryReport → ProducerContext → Option (Outcome Unit)
  | [], s => some (.done () s)
  | r :: rs, s =>
    match onDeliverMsg r s with
    | some (.done _ s) => rdKafkaPoll rs s
    | o => o

/-- `backpressure`: poll the producer, exit cleanly on a shutdown signal, and exit with an error
if the keepalive to Postgres fails. -/
def backpressure (p : Poll) (s : ProducerContext) : Option (Outcome Unit) :=
  match rdKafkaPoll p.reports s with
  | some (.done _ s) =>
    if p.shutdown then some (.exit 0 s)
    else if p.keepaliveErr then some (.exit 1 s)
    else some (.done () s)
  | o => o

/-- The `while (xact_list_full(context)) backpressure(context);` loop of `on_begin_txn`, one
element of `polls` for each call of `backpressure`. -/
def waitWhileFull : List Poll → ProducerContext → Option (Outcome Unit)
  | polls, s =>
    if xactListFull s then
      match polls with
      | [] => none
      | p :: ps =>
        match backpressure p s with
        | some (.done _ s) => waitWhileFull ps s
        | o => o
    else some (.done () s)

/-- The end of `on_begin_txn`: advance `xact_head` and initialise its slot for `xid`. -/
def beginXact (xid : Nat) (s : ProducerContext) : ProducerContext :=
  { s with
    xactHead := nextSlot s.xactHead
    xactList := Function.update s.xactList (nextSlot s.xactHead) ⟨xid, 0, 0, 0⟩ }

/-- `on_begin_txn`: a snapshot transaction is accepted only on an empty buffer whose tail is
slot 0; a full buffer is waited on with `backpressure`. -/
def onBeginTxn (polls : List Poll) (xid : Nat) (s : ProducerContext) : Option (Outcome Int) :=
  if xid = 0 ∧ ¬(s.xactTail.val = 0 ∧ xactListEmpty s = true) then some (.exit 1 s)
  else
    match waitWhileFull polls s with
    | some (.done _ s) => some (.done 0 (beginXact xid s))
    | some (.exit status s) => some (.exit status s)
    | none => none

/-- `xact->commit_lsn = wal_pos` on the head slot. -/
def setCommitLsn (walPos : Nat) (s : ProducerContext) : ProducerContext :=
  let xact := s.xactList s.xactHead
  { s with xactList := Function.update s.xactList s.xactHead { xact with commitLsn := walPos } }

/-- `on_commit_txn`: the commit must be for the transaction at the head; its position is recorded
and `maybe_checkpoint` runs. -/
def onCommitTxn (walPos xid : Nat) (s : ProducerContext) : Outcome Int :=
  if xid ≠ (s.xactList s.xactHead).xid then .exit 1 s
  else .done 0 (maybeCheckpoint (setCommitLsn walPos s))

@[simp] theorem decrementPending_xactHead (i : Fin xactListLen) (s : ProducerContext) :
    (decrementPending i s).xactHead = s.xactHead := rfl

@[simp] theorem decrementPending_xactTail (i : Fin xactListLen) (s : ProducerContext) :
    (decrementPending i s).xactTail = s.xactTail := rfl

@[simp] theorem decrementPending_inFlight (i : Fin xactListLen) (s : ProducerContext) :
    (decrementPending i s).inFlight = s.inFlight := rfl

@[simp] theorem decrementPending_errorPolicy (i : Fin xactListLen) (s : ProducerContext) :
    (decrementPending i s).errorPolicy = s.errorPolicy := rfl

@[simp] theorem decrementPending_fsyncLsn (i : Fin xactListLen) (s : ProducerContext) :
    (decrementPending i s).fsyncLsn = s.fsyncLsn := rfl

@[simp] theorem decrementPending_takingSnapshot (i : Fin xactListLen) (s : ProducerContext) :
    (decrementPending i s).takingSnapshot = s.takingSnapshot := rfl

theorem xactListLength_decrementPending (i : Fin xactListLen) (s : ProducerContext) :
    xactListLength (decrementPending i s) = xactListLength s := rfl

theorem xactListLength_setCommitLsn (walPos : Nat) (s : ProducerContext) :
    xactListLength (setCommitLsn walPos s) = xactListLength s := rfl

theorem xactListLength_beginXact {s : ProducerContext} (xid : Nat)
    (hfull : xactListFull s = false) :
    xactListLength (beginXact xid s) = xactListLength s + 1 := by
  have hh := s.xactHead.isLt
  have ht := s.xactTail.isLt
  have hlt := xactListLength_lt s
  rw [xactListFull, beq_eq_false_iff_ne] at hfull
  simp only [xactListLength, beginXact, nextSlot_val, xactListLen_eq] at hh ht hlt hfull ⊢
  omega

/-- Spec of `on_deliver_msg` when it returns: the reported message leaves librdkafka, its slot
loses one pending event, and `maybe_checkpoint` runs. -/
theorem onDeliverMsg_done {r : DeliveryReport} {s s' : ProducerContext} {u : Unit}
    (h : onDeliverMsg r s = some (.done u s')) :
    ∃ envelope, s.inFlight[r.index]? = some envelope ∧
      s' = maybeCheckpoint (decrementPending envelope.xact
        { s with inFlight := s.inFlight.eraseIdx r.index }) := by
  unfold onDeliverMsg at h
  cases henv : s.inFlight[r.index]? with
  | none => simp [henv] at h
  | some envelope =>
      refine ⟨envelope, rfl, ?_⟩
      cases hr : r.err <;> cases hp : s.errorPolicy <;> simp_all [handleError]

end BottledWater
