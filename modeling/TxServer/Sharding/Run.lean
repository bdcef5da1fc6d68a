import TxServer.Sharding.Object

/-!
# Runs of an object

The shard serialises the calls on one object under its lock, so whatever the
interleaving of transactions, the object sees one sequence of calls. A call is a value
here, `Op`; `step` performs one, `run` a sequence, and `history` pairs each call with
what it returned. The commit log of a history lists the writer and value of every commit
that returned `ValueChanged`, in order.

An invariant of runs is proved for one step; `run_induction` lifts it to every run whose
calls satisfy a side condition.
-/

namespace TxServer

/-- One call the shard makes on an object. -/
inductive Op (α : Type) where
  | read (id : TransactionId)
  | write (id : TransactionId) (value : α)
  | checkCommit (id : TransactionId)
  | commit (id : TransactionId)
  | abort (id : TransactionId)
  deriving DecidableEq, Repr

/-- The transaction making a call. -/
def Op.id {α : Type} : Op α → TransactionId
  | .read id | .write id _ | .checkCommit id | .commit id | .abort id => id

/-- What a call returned. -/
inductive Outcome (α : Type) [Checkable α] where
  | read (result : Except RWFailure α)
  | write (result : Except RWFailure Unit)
  | checkCommit
      (result : Except (CommitFailure (Checkable.ConsistencyCheckError α)) (CheckCommitSuccess Unit))
  | commit (result : Except (CommitFailure (Checkable.ConsistencyCheckError α)) (CommitSuccess α))
  | abort

/-- Whether a call returned an `Err`: `Abort`, `AbortedNotFound`, `WaitFor` or
`ConsistencyCheckFailed`. -/
def Outcome.failed {α : Type} [Checkable α] : Outcome α → Bool
  | .read (.error _) | .write (.error _) | .checkCommit (.error _) | .commit (.error _) => true
  | _ => false

namespace TimestampedObject

variable {α : Type} [Checkable α]

/-- One call: what it returned, and the object after it. -/
def step (self : TimestampedObject α) : Op α → Outcome α × TimestampedObject α
  | .read id => (.read (self.read id).1, (self.read id).2)
  | .write id value => (.write (self.write id value).1, (self.write id value).2)
  | .checkCommit id => (.checkCommit (self.checkCommit id), self)
  | .commit id => (.commit (self.commit id).1, (self.commit id).2)
  | .abort id => (.abort, self.abort id)

/-- The object after a sequence of calls. -/
def run (self : TimestampedObject α) : List (Op α) → TimestampedObject α
  | [] => self
  | op :: ops => (self.step op).2.run ops

/-- Each call of a sequence with what it returned. -/
def history (self : TimestampedObject α) : List (Op α) → List (Op α × Outcome α)
  | [] => []
  | op :: ops => (op, (self.step op).1) :: (self.step op).2.history ops

@[simp] theorem run_nil (self : TimestampedObject α) : self.run [] = self := rfl

@[simp] theorem run_cons (self : TimestampedObject α) (op : Op α) (ops : List (Op α)) :
    self.run (op :: ops) = (self.step op).2.run ops := rfl

@[simp] theorem history_nil (self : TimestampedObject α) : self.history [] = [] := rfl

@[simp] theorem history_cons (self : TimestampedObject α) (op : Op α) (ops : List (Op α)) :
    self.history (op :: ops) = (op, (self.step op).1) :: (self.step op).2.history ops := rfl

/-- A run of two parts runs the second from where the first ends. -/
theorem run_append (self : TimestampedObject α) (ops more : List (Op α)) :
    self.run (ops ++ more) = (self.run ops).run more := by
  induction ops generalizing self with
  | nil => rfl
  | cons op ops ih => exact ih _

/-- The history of two parts is the first's, then the second's from where the first ends. -/
theorem history_append (self : TimestampedObject α) (ops more : List (Op α)) :
    self.history (ops ++ more) = self.history ops ++ (self.run ops).history more := by
  induction ops generalizing self with
  | nil => rfl
  | cons op ops ih => simp [ih]

/-- Everything a call does to the pending writes. A write that succeeds, which takes a writer
above the committed one and at or above every reader, records its value; a commit that
changes the value removes its writer; an abort removes its transaction's write; no other
call changes them. -/
theorem tentativeWrites_step (self : TimestampedObject α) (op : Op α) :
    (∃ writer value, op = .write writer value ∧ self.committedTimestamp < writer ∧
      (∀ reader, self.readTimestamps.contains reader = true → reader ≤ writer) ∧
      (self.step op).1 = .write (.ok ()) ∧
      (self.step op).2.tentativeWrites = self.tentativeWrites.insert writer ⟨value⟩) ∨
    (∃ committer value, op = .commit committer ∧
      (self.commit committer).1 = .ok (.valueChanged value) ∧
      (self.step op).2.tentativeWrites = self.tentativeWrites.remove committer) ∨
    (∃ aborter, op = .abort aborter ∧
      (self.step op).2.tentativeWrites = self.tentativeWrites.remove aborter) ∨
    ((∀ writer value, op = .write writer value → (self.step op).1 ≠ .write (.ok ())) ∧
      (self.step op).2.committedTimestamp = self.committedTimestamp ∧
      (self.step op).2.tentativeWrites = self.tentativeWrites) := by
  cases op with
  | read id => exact .inr (.inr (.inr ⟨by simp, by simp [step], by simp [step]⟩))
  | write id value =>
    rcases write_cases self id value with ⟨after, below, done⟩ | ⟨-, done⟩
    · exact .inl ⟨id, value, rfl, after, below, by simp [step, done], by simp [step, done]⟩
    · exact .inr (.inr (.inr ⟨by simp [step, done], by simp [step, done], by simp [step, done]⟩))
  | checkCommit id => exact .inr (.inr (.inr ⟨by simp, rfl, rfl⟩))
  | commit id =>
    rcases commit_unchanged_or self id with same | ⟨value, changed⟩
    · exact .inr (.inr (.inr ⟨by simp, by simp [step, same], by simp [step, same]⟩))
    · obtain ⟨_, _, _, _, _, done⟩ := commit_eq_valueChanged changed
      exact .inr (.inl ⟨id, value, rfl, changed, by simp [step, done]⟩)
  | abort id => exact .inr (.inr (.inl ⟨id, rfl, by simp [step]⟩))

/-- A property kept by every allowed call holds after every run of allowed calls. -/
theorem run_induction (inv : TimestampedObject α → Prop) (allowed : Op α → Prop)
    (preserved : ∀ self op, allowed op → inv self → inv (self.step op).2) :
    ∀ {self : TimestampedObject α} {ops : List (Op α)},
      (∀ op ∈ ops, allowed op) → inv self → inv (self.run ops) := by
  intro self ops each holds
  induction ops generalizing self with
  | nil => exact holds
  | cons op ops ih =>
    exact ih (fun later mem => each later (List.mem_cons_of_mem op mem))
      (preserved self op (each op (List.mem_cons_self op ops)) holds)

end TimestampedObject

/-- The writer and value of a call that committed a value. -/
def committedEntry {α : Type} [Checkable α] : Op α × Outcome α → Option (TransactionId × α)
  | (.commit id, .commit (.ok (.valueChanged value))) => some (id, value)
  | _ => none

/-- The writer and value of every commit that returned `ValueChanged`, in order. -/
def commitLog {α : Type} [Checkable α] (history : List (Op α × Outcome α)) :
    List (TransactionId × α) :=
  history.filterMap committedEntry

namespace TimestampedObject

variable {α : Type} [Checkable α]

/-- One call logs a commit exactly when it is a commit returning `ValueChanged`. -/
theorem committedEntry_step (self : TimestampedObject α) (op : Op α) {id : TransactionId}
    {value : α} : committedEntry (op, (self.step op).1) = some (id, value) ↔
      op = .commit id ∧ (self.commit id).1 = .ok (.valueChanged value) := by
  cases op with
  | commit writer =>
    simp only [step]
    constructor
    · intro logged
      cases result : (self.commit writer).1 with
      | error e => simp [result, committedEntry] at logged
      | ok success =>
        cases success with
        | noChange v => simp [result, committedEntry] at logged
        | valueChanged v =>
          simp only [result, committedEntry, Option.some.injEq, Prod.mk.injEq] at logged
          obtain ⟨rfl, rfl⟩ := logged
          exact ⟨rfl, result⟩
    · rintro ⟨same, changed⟩
      obtain rfl := Op.commit.inj same
      simp [changed, committedEntry]
  | _ => simp [step, committedEntry]

/-- A call that logs no commit keeps the committed timestamp and value. -/
theorem step_unlogged (self : TimestampedObject α) (op : Op α)
    (unlogged : committedEntry (op, (self.step op).1) = none) :
    (self.step op).2.committedTimestamp = self.committedTimestamp ∧
      (self.step op).2.value = self.value := by
  cases op with
  | commit writer =>
    rcases commit_unchanged_or self writer with same | ⟨value, changed⟩
    · simp [step, same]
    · simp [step, committedEntry, changed] at unlogged
  | _ => simp [step]

/-- A call that fails leaves the object as it was: a failed read records no reader, a failed
write leaves no pending write, and a failed commit installs nothing. A run with the failed
call in it ends where the run without it does, so a retry after `WaitFor` starts from the
object as the other transactions' calls left it. -/
theorem failed_call_changes_nothing (self : TimestampedObject α) (op : Op α)
    (failed : (self.step op).1.failed = true) :
    (self.step op).2 = self ∧ ∀ ops, self.run (op :: ops) = self.run ops := by
  suffices unchanged : (self.step op).2 = self by simp [unchanged]
  cases op with
  | read id =>
    rw [step, read_state]
    cases result : (self.read id).1 with
    | error e => rfl
    | ok value => simp [step, result, Outcome.failed] at failed
  | write id value =>
    rcases write_cases self id value with ⟨-, -, done⟩ | ⟨-, done⟩ <;>
      simp [step, done, Outcome.failed] at failed ⊢
  | checkCommit id => rfl
  | commit id =>
    rcases commit_cases self id with ⟨-, done⟩ | ⟨_, -, done⟩ | ⟨_, -, -, done⟩ <;>
      simp [step, done, Outcome.failed] at failed ⊢
  | abort id => simp [step, Outcome.failed] at failed

end TimestampedObject

/-- A read by `⟨2, B⟩` that waits for the older pending writer `⟨1, B⟩` records no reader. -/
theorem waiting_read_records_no_reader :
    (((TimestampedObject.default 'A' : TimestampedObject Int).step
        (.write ⟨1, 'B'⟩ 5)).2.step (.read ⟨2, 'B'⟩)).1 = .read (.error (.waitFor ⟨1, 'B'⟩)) ∧
      (((TimestampedObject.default 'A' : TimestampedObject Int).step
        (.write ⟨1, 'B'⟩ 5)).2.step (.read ⟨2, 'B'⟩)).2 =
        ((TimestampedObject.default 'A' : TimestampedObject Int).step (.write ⟨1, 'B'⟩ 5)).2 :=
  ⟨rfl, (TimestampedObject.failed_call_changes_nothing
    ((TimestampedObject.default 'A' : TimestampedObject Int).step (.write ⟨1, 'B'⟩ 5)).2
    (.read ⟨2, 'B'⟩) rfl).1⟩

end TxServer
