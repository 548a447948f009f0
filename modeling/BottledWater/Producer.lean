import Mathlib.Logic.Function.Basic
import Mathlib.Tactic.Ring

/-! The producer state of `bottledwater.c` that the transaction tracker reads and writes: the
circular buffer `xact_list` of in-flight transactions with its cursors `xact_head` and
`xact_tail`, the replication stream's `fsync_lsn`, the client's `taking_snapshot` flag, the
configured output format and error policy, and the envelopes of the messages librdkafka holds
until it reports their delivery.

The cursors are `Fin XACT_LIST_LEN`: every assignment to them in the source is reduced
`% XACT_LIST_LEN` or is the constant `XACT_LIST_LEN - 1`. Transaction ids and log positions are
only compared and assigned, so they are natural numbers. The event counters are C `int`s and are
integers here, so that a counter driven below zero would show. -/

namespace BottledWater

/-- `MAX_IN_FLIGHT_TRANSACTIONS`. -/
def maxInFlightTransactions : Nat := 1000

/-- `XACT_LIST_LEN`: one slot more than the transactions in flight, so that the circular buffer
can tell a full buffer from an empty one. -/
def xactListLen : Nat := maxInFlightTransactions + 1

theorem xactListLen_eq : xactListLen = 1001 := rfl

theorem xactListLen_pos : 0 < xactListLen := Nat.succ_pos _

/-- `transaction_info`. -/
structure TransactionInfo where
  xid : Nat
  recvdEvents : Int
  pendingEvents : Int
  commitLsn : Nat
  deriving DecidableEq, Repr

/-- A slot as the `memset` of `init_producer` leaves it. -/
def TransactionInfo.zero : TransactionInfo := ⟨0, 0, 0, 0⟩

/-- The condition of the `while` loop of `maybe_checkpoint`: no event of the transaction waits
for Kafka, and it has committed or is the snapshot transaction `xid == 0`. -/
def checkpointable (xact : TransactionInfo) : Bool :=
  xact.pendingEvents == 0 && (decide (0 < xact.commitLsn) || xact.xid == 0)

theorem checkpointable_iff {xact : TransactionInfo} :
    checkpointable xact = true ↔ xact.pendingEvents = 0 ∧ (0 < xact.commitLsn ∨ xact.xid = 0) := by
  simp [checkpointable]

@[simp] theorem checkpointable_zero : checkpointable TransactionInfo.zero = true := rfl

/-- `error_policy_t`. -/
inductive ErrorPolicy
  | undefined
  | log
  | exit
  deriving DecidableEq, Repr

/-- `format_t`. -/
inductive OutputFormat
  | undefined
  | avro
  | json
  deriving DecidableEq, Repr

/-- `msg_envelope`: the row's log position and relation, and the slot of `xact_list` that its
`xact` pointer points to. -/
structure MsgEnvelope where
  walPos : Nat
  relid : Nat
  xact : Fin xactListLen
  deriving DecidableEq, Repr

/-- `producer_context` as the tracker sees it, with `client->repl.fsync_lsn`,
`client->taking_snapshot`, and the envelopes librdkafka holds, in the order they were enqueued. -/
structure ProducerContext where
  xactList : Fin xactListLen → TransactionInfo
  xactHead : Fin xactListLen
  xactTail : Fin xactListLen
  fsyncLsn : Nat
  takingSnapshot : Bool
  outputFormat : OutputFormat
  errorPolicy : ErrorPolicy
  inFlight : List MsgEnvelope

/-- `(i + 1) % XACT_LIST_LEN`. -/
def nextSlot (i : Fin xactListLen) : Fin xactListLen :=
  ⟨(i.val + 1) % xactListLen, Nat.mod_lt _ xactListLen_pos⟩

/-- `xact_list_length`. -/
def xactListLength (s : ProducerContext) : Nat :=
  (xactListLen + s.xactHead.val + 1 - s.xactTail.val) % xactListLen

/-- `xact_list_full`. -/
def xactListFull (s : ProducerContext) : Bool :=
  xactListLength s == xactListLen - 1

/-- `xact_list_empty`. -/
def xactListEmpty (s : ProducerContext) : Bool :=
  xactListLength s == 0

/-- `init_producer` after `parse_options` and `db_client_start`: the buffer is zeroed,
`xact_head = XACT_LIST_LEN - 1` and `xact_tail = 0`, so the buffer starts empty; the stream's
`fsync_lsn`, the snapshot flag, the output format and the error policy are the ones the client
and the options set. -/
def initProducer (fsyncLsn : Nat) (takingSnapshot : Bool) (outputFormat : OutputFormat)
    (errorPolicy : ErrorPolicy) : ProducerContext where
  xactList := fun _ => TransactionInfo.zero
  xactHead := ⟨xactListLen - 1, by decide⟩
  xactTail := ⟨0, xactListLen_pos⟩
  fsyncLsn := fsyncLsn
  takingSnapshot := takingSnapshot
  outputFormat := outputFormat
  errorPolicy := errorPolicy
  inFlight := []

/-- `on_keepalive`: `0` when the buffer is empty, `FRAME_READER_SYNC_PENDING` otherwise. -/
def onKeepalive (syncPending : Int) (s : ProducerContext) : Int :=
  if xactListEmpty s then 0 else syncPending

/-- Whether `exit_nicely(context, status)` drops the replication slot. -/
def exitNicelyDropsSlot (s : ProducerContext) (status : Int) : Bool :=
  s.takingSnapshot && status != 0

theorem nextSlot_val (i : Fin xactListLen) : (nextSlot i).val = (i.val + 1) % xactListLen := rfl

theorem xactListLength_lt (s : ProducerContext) : xactListLength s < xactListLen :=
  Nat.mod_lt _ xactListLen_pos

theorem xactListEmpty_iff {s : ProducerContext} :
    xactListEmpty s = true ↔ xactListLength s = 0 := by
  simp [xactListEmpty]

theorem xactListFull_iff {s : ProducerContext} :
    xactListFull s = true ↔ xactListLength s = xactListLen - 1 := by
  simp [xactListFull]

@[simp] theorem xactListLength_initProducer (f : Nat) (t : Bool) (o : OutputFormat)
    (e : ErrorPolicy) : xactListLength (initProducer f t o e) = 0 := by
  show (xactListLen + (xactListLen - 1) + 1 - 0) % xactListLen = 0
  rw [xactListLen_eq]

/-- The buffer read from the tail: the `i`-th slot after `xact_tail`. -/
def slotAt (s : ProducerContext) (i : Nat) : Fin xactListLen :=
  ⟨(s.xactTail.val + i) % xactListLen, Nat.mod_lt _ xactListLen_pos⟩

theorem slotAt_val (s : ProducerContext) (i : Nat) :
    (slotAt s i).val = (s.xactTail.val + i) % xactListLen := rfl

theorem slotAt_length_sub_one {s : ProducerContext} (h : 0 < xactListLength s) :
    slotAt s (xactListLength s - 1) = s.xactHead := by
  have hh := s.xactHead.isLt
  have ht := s.xactTail.isLt
  apply Fin.ext
  simp only [slotAt_val, xactListLength, xactListLen_eq] at h hh ht ⊢
  omega

theorem slotAt_injective {s : ProducerContext} {i j : Nat} (hi : i < xactListLen)
    (hj : j < xactListLen) (h : slotAt s i = slotAt s j) : i = j := by
  have ht := s.xactTail.isLt
  simp only [slotAt, Fin.mk.injEq, xactListLen_eq] at h hi hj ht
  omega

end BottledWater
