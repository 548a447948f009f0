import BottledWater.Run

/-! The transaction tracker as an unbounded queue: what the circular buffer stands for. It holds
every transaction begun, in begin order, with the producer's record for it, whether its commit has
arrived and how many of its sends failed; the first `retired` have been checkpointed, and each
message librdkafka holds is tagged with its transaction. Checkpointing pops the leading
checkpointable transactions; on an empty queue the loop walks the stale slots (`stale`), and the
most recent transaction rejoins the queue if it is no longer checkpointable, which happens to a
snapshot retired before its commit. `Upstream` is the upstream's promise on the next event. -/

namespace BottledWater

/-- A transaction of the history: the producer's record for it, whether its commit event has
arrived, and how many of its row events were not handed to librdkafka. -/
structure Txn where
  info : TransactionInfo
  committed : Bool
  failed : Nat

/-- The tracker: `begun` transactions so far, the `k`-th of them `txns k`, of which the first
`retired` are checkpointed; for each message librdkafka holds, the transaction it was sent for;
and the checkpoint position and snapshot flag. -/
structure Tracker where
  begun : Nat
  txns : Nat → Txn
  retired : Nat
  envelopes : List Nat
  fsyncLsn : Nat
  takingSnapshot : Bool

namespace Tracker

/-- The tracker before any transaction. -/
def init (fsyncLsn : Nat) (takingSnapshot : Bool) : Tracker :=
  ⟨0, fun _ => ⟨TransactionInfo.zero, false, 0⟩, 0, [], fsyncLsn, takingSnapshot⟩

/-- A transaction as `on_begin_txn` initialises it. -/
def fresh (xid : Nat) : Txn := ⟨⟨xid, 0, 0, 0⟩, false, 0⟩

/-- How many of `q 0, q 1, ..., q (m - 1)` hold in a row. -/
def popCount (q : Nat → Bool) : Nat → Nat
  | 0 => 0
  | m + 1 => if q 0 then popCount (fun i => q (i + 1)) m + 1 else 0

/-- The record of the `i`-th transaction from the front of the queue. -/
def queued (a : Tracker) (i : Nat) : TransactionInfo := (a.txns (a.retired + i)).info

/-- What the buffer slot `(begun + i) % XACT_LIST_LEN` holds: the record of the last transaction
begun into it, or the zero record of `init_producer` if none was. -/
def stale (a : Tracker) (i : Nat) : TransactionInfo :=
  if a.begun + i < xactListLen then TransactionInfo.zero
  else (a.txns (a.begun + i - xactListLen)).info

/-- The loop body run over the records `rec 0, ..., rec (p - 1)`: the checkpoint moves to the
last one's commit position, and the snapshot flag is cleared if one is the committed snapshot. -/
def retireRecords (rec : Nat → TransactionInfo) (p : Nat) (a : Tracker) : Tracker :=
  { a with
    fsyncLsn := if p = 0 then a.fsyncLsn else (rec (p - 1)).commitLsn
    takingSnapshot := a.takingSnapshot && (List.range p).all fun i => !committedSnapshot (rec i) }

/-- `maybe_checkpoint` on the queue: the loop body runs over `p` records and the tail advances
`p` slots. On a non-empty queue they are its leading checkpointable transactions. On an empty
queue they are the stale slots, all of them, or all but the most recently begun transaction's,
which then rejoins the queue. -/
def checkpoint (a : Tracker) : Tracker :=
  if a.retired < a.begun then
    let p := popCount (fun i => checkpointable (a.queued i)) (a.begun - a.retired)
    { retireRecords a.queued p a with retired := a.retired + p }
  else
    let p := if checkpointable (a.stale (xactListLen - 1)) then xactListLen else xactListLen - 1
    { retireRecords a.stale p a with retired := a.begun + p - xactListLen }

def modify (k : Nat) (f : Txn → Txn) (a : Tracker) : Tracker :=
  { a with txns := Function.update a.txns k (f (a.txns k)) }

/-- `on_begin_txn` on the queue: a fresh transaction joins at the back. -/
def push (xid : Nat) (a : Tracker) : Tracker :=
  { a with begun := a.begun + 1, txns := Function.update a.txns a.begun (fresh xid) }

/-- A row event on a transaction: both counters rise, and a failure is counted. -/
def sendRow (sent : Bool) (t : Txn) : Txn :=
  { t with
    info := { t.info with
      recvdEvents := t.info.recvdEvents + 1, pendingEvents := t.info.pendingEvents + 1 }
    failed := if sent then t.failed else t.failed + 1 }

/-- A row event on the queue: it counts against the most recent transaction, and a message
handed to librdkafka is tagged with it. -/
def recordRow (sent : Bool) (a : Tracker) : Tracker :=
  { modify (a.begun - 1) (sendRow sent) a with
    envelopes := if sent then a.envelopes ++ [a.begun - 1] else a.envelopes }

/-- The commit event of a transaction. -/
def commitAt (walPos : Nat) (t : Txn) : Txn :=
  { t with info := { t.info with commitLsn := walPos }, committed := true }

/-- A delivery report for a message of a transaction. -/
def deliverOne (t : Txn) : Txn :=
  { t with info := { t.info with pendingEvents := t.info.pendingEvents - 1 } }

/-- The report for the `i`-th message librdkafka holds, sent for transaction `k`. -/
def acknowledge (i k : Nat) (a : Tracker) : Tracker :=
  { modify k deliverOne a with envelopes := a.envelopes.eraseIdx i }

/-- One event on the tracker. A begin on a full queue and a report for a message librdkafka does
not hold change nothing; the producer never gets past them. -/
def step (a : Tracker) : Event → Tracker
  | .beginTxn xid => if a.begun - a.retired < xactListLen - 1 then push xid a else a
  | .commitTxn walPos _ => checkpoint (modify (a.begun - 1) (commitAt walPos) a)
  | .row _ _ sent => recordRow sent a
  | .deliver r =>
    match a.envelopes[r.index]? with
    | none => a
    | some k => checkpoint (acknowledge r.index k a)

/-- The upstream's promise about the next event. -/
def Upstream (a : Tracker) : Event → Prop
  | .beginTxn _ => 0 < a.begun → (a.txns (a.begun - 1)).committed = true
  | .commitTxn _ xid =>
    0 < a.begun ∧ (a.txns (a.begun - 1)).committed = false ∧ (a.txns (a.begun - 1)).info.xid = xid
  | .row _ _ _ => 0 < a.begun ∧ (a.txns (a.begun - 1)).committed = false
  | .deliver _ => True

@[simp] theorem modify_begun (k : Nat) (f : Txn → Txn) (a : Tracker) :
    (modify k f a).begun = a.begun := rfl

@[simp] theorem modify_retired (k : Nat) (f : Txn → Txn) (a : Tracker) :
    (modify k f a).retired = a.retired := rfl

@[simp] theorem modify_envelopes (k : Nat) (f : Txn → Txn) (a : Tracker) :
    (modify k f a).envelopes = a.envelopes := rfl

@[simp] theorem modify_fsyncLsn (k : Nat) (f : Txn → Txn) (a : Tracker) :
    (modify k f a).fsyncLsn = a.fsyncLsn := rfl

@[simp] theorem modify_takingSnapshot (k : Nat) (f : Txn → Txn) (a : Tracker) :
    (modify k f a).takingSnapshot = a.takingSnapshot := rfl

@[simp] theorem modify_txns (k : Nat) (f : Txn → Txn) (a : Tracker) (j : Nat) :
    (modify k f a).txns j = if j = k then f (a.txns k) else a.txns j :=
  Function.update_apply _ _ _ _

@[simp] theorem push_begun (xid : Nat) (a : Tracker) : (push xid a).begun = a.begun + 1 := rfl

@[simp] theorem push_retired (xid : Nat) (a : Tracker) : (push xid a).retired = a.retired := rfl

@[simp] theorem push_envelopes (xid : Nat) (a : Tracker) :
    (push xid a).envelopes = a.envelopes := rfl

@[simp] theorem push_fsyncLsn (xid : Nat) (a : Tracker) : (push xid a).fsyncLsn = a.fsyncLsn :=
  rfl

@[simp] theorem push_takingSnapshot (xid : Nat) (a : Tracker) :
    (push xid a).takingSnapshot = a.takingSnapshot := rfl

@[simp] theorem push_txns (xid : Nat) (a : Tracker) (k : Nat) :
    (push xid a).txns k = if k = a.begun then fresh xid else a.txns k :=
  Function.update_apply _ _ _ _

@[simp] theorem recordRow_begun (sent : Bool) (a : Tracker) :
    (recordRow sent a).begun = a.begun := rfl

@[simp] theorem recordRow_retired (sent : Bool) (a : Tracker) :
    (recordRow sent a).retired = a.retired := rfl

@[simp] theorem recordRow_envelopes (sent : Bool) (a : Tracker) :
    (recordRow sent a).envelopes = if sent then a.envelopes ++ [a.begun - 1] else a.envelopes :=
  rfl

@[simp] theorem recordRow_fsyncLsn (sent : Bool) (a : Tracker) :
    (recordRow sent a).fsyncLsn = a.fsyncLsn := rfl

@[simp] theorem recordRow_takingSnapshot (sent : Bool) (a : Tracker) :
    (recordRow sent a).takingSnapshot = a.takingSnapshot := rfl

@[simp] theorem recordRow_txns (sent : Bool) (a : Tracker) (k : Nat) :
    (recordRow sent a).txns k =
      if k = a.begun - 1 then sendRow sent (a.txns (a.begun - 1)) else a.txns k :=
  Function.update_apply _ _ _ _

@[simp] theorem acknowledge_begun (i k : Nat) (a : Tracker) :
    (acknowledge i k a).begun = a.begun := rfl

@[simp] theorem acknowledge_retired (i k : Nat) (a : Tracker) :
    (acknowledge i k a).retired = a.retired := rfl

@[simp] theorem acknowledge_envelopes (i k : Nat) (a : Tracker) :
    (acknowledge i k a).envelopes = a.envelopes.eraseIdx i := rfl

@[simp] theorem acknowledge_fsyncLsn (i k : Nat) (a : Tracker) :
    (acknowledge i k a).fsyncLsn = a.fsyncLsn := rfl

@[simp] theorem acknowledge_takingSnapshot (i k : Nat) (a : Tracker) :
    (acknowledge i k a).takingSnapshot = a.takingSnapshot := rfl

@[simp] theorem acknowledge_txns (i k : Nat) (a : Tracker) (j : Nat) :
    (acknowledge i k a).txns j = if j = k then deliverOne (a.txns k) else a.txns j :=
  Function.update_apply _ _ _ _

@[simp] theorem retireRecords_begun (rec : Nat → TransactionInfo) (p : Nat) (a : Tracker) :
    (retireRecords rec p a).begun = a.begun := rfl

@[simp] theorem retireRecords_txns (rec : Nat → TransactionInfo) (p : Nat) (a : Tracker) :
    (retireRecords rec p a).txns = a.txns := rfl

@[simp] theorem retireRecords_retired (rec : Nat → TransactionInfo) (p : Nat) (a : Tracker) :
    (retireRecords rec p a).retired = a.retired := rfl

@[simp] theorem retireRecords_envelopes (rec : Nat → TransactionInfo) (p : Nat) (a : Tracker) :
    (retireRecords rec p a).envelopes = a.envelopes := rfl

@[simp] theorem retireRecords_fsyncLsn (rec : Nat → TransactionInfo) (p : Nat) (a : Tracker) :
    (retireRecords rec p a).fsyncLsn = if p = 0 then a.fsyncLsn else (rec (p - 1)).commitLsn :=
  rfl

@[simp] theorem retireRecords_takingSnapshot (rec : Nat → TransactionInfo) (p : Nat)
    (a : Tracker) : (retireRecords rec p a).takingSnapshot =
      (a.takingSnapshot && (List.range p).all fun i => !committedSnapshot (rec i)) := rfl

@[simp] theorem checkpoint_begun (a : Tracker) : (checkpoint a).begun = a.begun := by
  unfold checkpoint
  split_ifs <;> simp only [retireRecords_begun]

@[simp] theorem checkpoint_txns (a : Tracker) : (checkpoint a).txns = a.txns := by
  unfold checkpoint
  split_ifs <;> simp only [retireRecords_txns]

@[simp] theorem checkpoint_envelopes (a : Tracker) : (checkpoint a).envelopes = a.envelopes := by
  unfold checkpoint
  split_ifs <;> simp only [retireRecords_envelopes]

theorem checkpoint_eq (a : Tracker) :
    checkpoint a =
      if a.retired < a.begun then
        { retireRecords a.queued
            (popCount (fun i => checkpointable (a.queued i)) (a.begun - a.retired)) a with
          retired := a.retired +
            popCount (fun i => checkpointable (a.queued i)) (a.begun - a.retired) }
      else
        { retireRecords a.stale
            (if checkpointable (a.stale (xactListLen - 1)) then xactListLen else xactListLen - 1)
            a with
          retired := a.begun +
            (if checkpointable (a.stale (xactListLen - 1)) then xactListLen else xactListLen - 1) -
              xactListLen } := rfl

theorem checkpoint_retired (a : Tracker) :
    (checkpoint a).retired =
      if a.retired < a.begun then
        a.retired + popCount (fun i => checkpointable (a.queued i)) (a.begun - a.retired)
      else if checkpointable (a.stale (xactListLen - 1)) then a.begun else a.begun - 1 := by
  rw [checkpoint_eq]
  split_ifs <;> simp only [retireRecords_retired] <;> rw [xactListLen_eq] <;> omega

theorem popCount_le (q : Nat → Bool) (m : Nat) : popCount q m ≤ m := by
  induction m generalizing q with
  | zero => exact le_rfl
  | succ m ih =>
      simp only [popCount]
      split
      · exact Nat.succ_le_succ (ih _)
      · exact Nat.zero_le _

theorem popCount_spec (q : Nat → Bool) (m : Nat) :
    (∀ i < popCount q m, q i = true) ∧ (popCount q m < m → q (popCount q m) = false) := by
  induction m generalizing q with
  | zero => simp [popCount]
  | succ m ih =>
      obtain ⟨hall, hstop⟩ := ih fun i => q (i + 1)
      simp only [popCount]
      split
      · rename_i h0
        refine ⟨fun i hi => ?_, fun hlt => hstop (by omega)⟩
        cases i with
        | zero => exact h0
        | succ i => exact hall i (by omega)
      · rename_i h0
        exact ⟨fun i hi => absurd hi (Nat.not_lt_zero i), fun _ => by simpa using h0⟩

theorem popCount_eq {q : Nat → Bool} {m n : Nat} (hn : n ≤ m) (hall : ∀ i < n, q i = true)
    (hstop : n < m → q n = false) : popCount q m = n := by
  obtain ⟨hall', hstop'⟩ := popCount_spec q m
  have hle := popCount_le q m
  rcases Nat.lt_trichotomy (popCount q m) n with hlt | heq | hgt
  · have h := hstop' (by omega)
    rw [hall _ hlt] at h
    cases h
  · exact heq
  · have h := hstop (by omega)
    rw [hall' _ hgt] at h
    cases h

end Tracker

end BottledWater
