import TxServer.TransactionId
import TxServer.Collections

/-!
# Timestamp-ordered objects

`sharding::object` keeps, for one key, the last committed value, the id of the
transaction that committed it, the ids of the transactions that read it, and the writes
still pending, keyed by writer. The shard calls `read`, `write`, `check_commit`,
`commit` and `abort` on it under the object's lock, so each call is one step of a state
machine; a `&mut self` method is a function returning its result with the next state.

The `unwrap` and `unreachable!` of `check_commit` and `commit` follow a successful
`contains_key`, so they cannot fire; their branches below return the object unchanged,
and the characterisation lemmas at the end show that no reachable input takes them.
-/

namespace TxServer

/-- `Checkable` (declared in the `sharding` module, which is not among the repository's
files): a consistency check on values, with its own error type. -/
class Checkable (α : Type) where
  /-- `Checkable::ConsistencyCheckError`. -/
  ConsistencyCheckError : Type
  /-- `Checkable::check`. -/
  check : α → Except ConsistencyCheckError Unit

/-- `RWFailure`: why a read or a write did not happen. -/
inductive RWFailure where
  | waitFor (id : TransactionId)
  | abortedNotFound
  | abort
  deriving DecidableEq, Repr

/-- `CommitFailure`: why a commit cannot happen now. -/
inductive CommitFailure (ε : Type) where
  | waitFor (id : TransactionId)
  | consistencyCheckFailed (error : ε)
  deriving DecidableEq, Repr

/-- `CommitSuccess`: the committed value, and whether the commit changed it. -/
inductive CommitSuccess (α : Type) where
  | valueChanged (value : α)
  | noChange (value : α)
  deriving DecidableEq, Repr

/-- `CheckCommitSuccess`: whether a commit would install a value. -/
inductive CheckCommitSuccess (α : Type) where
  | commitValue (value : α)
  | nothingToCommit
  deriving DecidableEq, Repr

/-- `TentativeWrite`: the value a pending transaction wrote. -/
structure TentativeWrite (α : Type) where
  /-- The written value. -/
  value : α
  deriving DecidableEq, Repr

namespace TentativeWrite

/-- `TentativeWrite::new`. -/
def new {α : Type} (value : α) : TentativeWrite α := ⟨value⟩

/-- `TentativeWrite::update`: the new value replaces the old one. -/
def update {α : Type} (write : TentativeWrite α) (value : α) : TentativeWrite α :=
  { write with value := value }

end TentativeWrite

/-- `TimestampedObject`: one key's committed state and pending transactions. -/
structure TimestampedObject (α : Type) where
  /-- The last committed value. -/
  value : α
  /-- The writer of `value`; a default id while nothing was committed. -/
  committedTimestamp : TransactionId
  /-- Every transaction recorded as a reader. -/
  readTimestamps : BTreeSet TransactionId
  /-- Pending writes, keyed by writer. -/
  tentativeWrites : BTreeMap TransactionId (TentativeWrite α)

namespace TimestampedObject

variable {α : Type}

/-- `TimestampedObject::default(owner_id)`: nothing committed, read or pending. -/
def default [Inhabited α] (ownerId : NodeId) : TimestampedObject α where
  value := Inhabited.default
  committedTimestamp := TransactionId.default ownerId
  readTimestamps := BTreeSet.new
  tentativeWrites := BTreeMap.new

/-- `TimestampedObject::read`: read your own pending write, or the committed value when no
older transaction has one pending; wait for the youngest older writer otherwise. -/
def read (self : TimestampedObject α) (id : TransactionId) :
    Except RWFailure α × TimestampedObject α :=
  if id > self.committedTimestamp then
    match self.tentativeWrites.rangeNextBack self.committedTimestamp id with
    | none =>
      if self.committedTimestamp.isDefault then (.error .abortedNotFound, self)
      else (.ok self.value, { self with readTimestamps := self.readTimestamps.insert id })
    | some (ts, tw) =>
      if ts = id then (.ok tw.value, { self with readTimestamps := self.readTimestamps.insert id })
      else (.error (.waitFor ts), self)
  else (.error .abort, self)

/-- `TimestampedObject::write`: a transaction no older than every reader and younger than the
committed writer records, or replaces, its pending write. -/
def write (self : TimestampedObject α) (id : TransactionId) (value : α) :
    Except RWFailure Unit × TimestampedObject α :=
  let isAfterMrt := self.readTimestamps.last?.elim true fun mrt => decide (id ≥ mrt)
  if isAfterMrt && decide (id > self.committedTimestamp) then
    (.ok (), { self with
      tentativeWrites := self.tentativeWrites.entryAndModifyOrInsert id
        (fun tw => tw.update value) (TentativeWrite.new value) })
  else (.error .abort, self)

/-- `TimestampedObject::check_commit`: the oldest pending writer may commit a value that
passes the check; a younger one waits for it. -/
def checkCommit [Checkable α] (self : TimestampedObject α) (id : TransactionId) :
    Except (CommitFailure (Checkable.ConsistencyCheckError α)) (CheckCommitSuccess Unit) :=
  if !self.tentativeWrites.containsKey id then .ok .nothingToCommit
  else
    match self.tentativeWrites.firstKey? with
    | some first =>
      if id = first then
        match self.tentativeWrites.get? id with
        | some tw =>
          match Checkable.check tw.value with
          | .ok v => .ok (.commitValue v)
          | .error e => .error (.consistencyCheckFailed e)
        | none => .ok .nothingToCommit
      else .error (.waitFor first)
    | none => .ok .nothingToCommit

/-- `TimestampedObject::commit`: when `check_commit` allows it, install the pending write as
the committed value and its writer as the committed timestamp. -/
def commit [Checkable α] (self : TimestampedObject α) (id : TransactionId) :
    Except (CommitFailure (Checkable.ConsistencyCheckError α)) (CommitSuccess α) ×
      TimestampedObject α :=
  match self.checkCommit id with
  | .error e => (.error e, self)
  | .ok (.commitValue _) =>
    match self.tentativeWrites.removeEntry id with
    | (some (ts, tw), rest) =>
      let next := { self with tentativeWrites := rest, committedTimestamp := ts, value := tw.value }
      (.ok (.valueChanged next.value), next)
    | (none, _) => (.ok (.noChange self.value), self)
  | .ok .nothingToCommit => (.ok (.noChange self.value), self)

/-- `TimestampedObject::can_reap`: nothing was committed, and no transaction but the aborting
one has a pending write. -/
def canReap (self : TimestampedObject α) (abortingId : TransactionId) : Bool :=
  let onlyViolation := self.tentativeWrites.len == 1 && self.tentativeWrites.containsKey abortingId
  self.committedTimestamp.isDefault && (self.tentativeWrites.isEmpty || onlyViolation)

/-- `TimestampedObject::abort`: forget the transaction's pending write and its read. -/
def abort (self : TimestampedObject α) (id : TransactionId) : TimestampedObject α :=
  { self with
    tentativeWrites := self.tentativeWrites.remove id
    readTimestamps := self.readTimestamps.remove id }

/-! ## What each operation does -/

section Operations

variable {self : TimestampedObject α} {id : TransactionId}

/-- The object after `id` is recorded as a reader. -/
abbrev recordRead (self : TimestampedObject α) (id : TransactionId) : TimestampedObject α :=
  { self with readTimestamps := self.readTimestamps.insert id }

/-- Every outcome of `read`: too late; the reader's own pending write; the committed value,
or not found, when no pending writer lies between the committed one and the reader; or a
wait for such a writer, which is then older than the reader. -/
theorem read_cases (self : TimestampedObject α) (id : TransactionId) :
    (id ≤ self.committedTimestamp ∧ self.read id = (.error .abort, self)) ∨
    (self.committedTimestamp < id ∧ ∃ tw, self.tentativeWrites.get? id = some tw ∧
      self.read id = (.ok tw.value, self.recordRead id)) ∨
    (self.committedTimestamp < id ∧
      (∀ other, self.tentativeWrites.containsKey other = true →
        self.committedTimestamp < other → id < other) ∧
      (self.committedTimestamp.isDefault = true ∧ self.read id = (.error .abortedNotFound, self) ∨
       self.committedTimestamp.isDefault = false ∧
        self.read id = (.ok self.value, self.recordRead id))) ∨
    (self.committedTimestamp < id ∧ self.tentativeWrites.get? id = none ∧
      ∃ writer, self.committedTimestamp < writer ∧ writer < id ∧
        self.tentativeWrites.containsKey writer = true ∧
        self.read id = (.error (.waitFor writer), self)) := by
  by_cases after : self.committedTimestamp < id
  · cases found : self.tentativeWrites.rangeNextBack self.committedTimestamp id with
    | none =>
      have empty := BTreeMap.rangeNextBack_eq_none found
      refine .inr (.inr (.inl ⟨after, empty, ?_⟩))
      cases default : self.committedTimestamp.isDefault <;> simp [read, after, found, default]
    | some entry =>
      obtain ⟨writer, tw⟩ := entry
      obtain ⟨stored, above, below, -⟩ := BTreeMap.rangeNextBack_eq_some found
      by_cases own : writer = id
      · subst own
        exact .inr (.inl ⟨after, tw, stored, by simp [read, after, found]⟩)
      · have older := lt_of_le_of_ne below own
        have noOwn : self.tentativeWrites.get? id = none := by
          cases get : self.tentativeWrites.get? id with
          | none => rfl
          | some mine =>
            rw [BTreeMap.rangeNextBack_of_get? after get, Option.some.injEq] at found
            exact absurd (congrArg Prod.fst found).symm own
        refine .inr (.inr (.inr ⟨after, noOwn, writer, above, older,
          BTreeMap.containsKey_iff.2 ⟨tw, stored⟩, ?_⟩))
        simp [read, after, found, own]
  · exact .inl ⟨not_lt.1 after, by simp [read, after]⟩

/-- A transaction above the committed writer reads its own pending write. -/
theorem read_of_get? {tw : TentativeWrite α} (after : self.committedTimestamp < id)
    (stored : self.tentativeWrites.get? id = some tw) :
    self.read id = (.ok tw.value, self.recordRead id) := by
  rcases read_cases self id with ⟨late, -⟩ | ⟨-, own, found, done⟩ | ⟨-, above, -⟩ |
      ⟨-, absent, -⟩
  · exact absurd after (not_lt.2 late)
  · rw [stored, Option.some.injEq] at found
    rw [done, found]
  · exact absurd (above id (BTreeMap.containsKey_iff.2 ⟨tw, stored⟩) after) (lt_irrefl id)
  · simp [stored] at absent

/-- No reader is younger than `id`. -/
theorem isAfterMrt_iff (self : TimestampedObject α) (id : TransactionId) :
    self.readTimestamps.last?.elim true (fun mrt => decide (id ≥ mrt)) = true ↔
      ∀ reader, self.readTimestamps.contains reader = true → reader ≤ id := by
  cases found : self.readTimestamps.last? with
  | none => simp [BTreeSet.last?_eq_none found]
  | some mrt =>
    obtain ⟨contained, greatest⟩ := BTreeSet.last?_eq_some found
    simp only [Option.elim, decide_eq_true_eq, ge_iff_le]
    exact ⟨fun atLeast reader read => (greatest reader read).trans atLeast,
      fun atLeast => atLeast mrt contained⟩

/-- The only change `write` makes: the writer's pending value becomes the written one. -/
theorem entryAndModifyOrInsert_update (writes : BTreeMap TransactionId (TentativeWrite α))
    (id : TransactionId) (value : α) :
    writes.entryAndModifyOrInsert id (fun tw => tw.update value) (TentativeWrite.new value) =
      writes.insert id ⟨value⟩ := by
  unfold BTreeMap.entryAndModifyOrInsert
  split <;> rfl

/-- Every outcome of `write`: when the writer is younger than the committed writer and no
younger transaction has read, it records its value; otherwise it aborts and changes nothing. -/
theorem write_cases (self : TimestampedObject α) (id : TransactionId) (value : α) :
    (self.committedTimestamp < id ∧
      (∀ reader, self.readTimestamps.contains reader = true → reader ≤ id) ∧
      self.write id value =
        (.ok (), { self with tentativeWrites := self.tentativeWrites.insert id ⟨value⟩ })) ∨
    (¬(self.committedTimestamp < id ∧
      ∀ reader, self.readTimestamps.contains reader = true → reader ≤ id) ∧
      self.write id value = (.error .abort, self)) := by
  by_cases allowed : self.committedTimestamp < id ∧
      ∀ reader, self.readTimestamps.contains reader = true → reader ≤ id
  · refine .inl ⟨allowed.1, allowed.2, ?_⟩
    have mrt := (isAfterMrt_iff self id).2 allowed.2
    simp [write, mrt, allowed.1, entryAndModifyOrInsert_update]
  · refine .inr ⟨allowed, ?_⟩
    have refused : (self.readTimestamps.last?.elim true (fun mrt => decide (id ≥ mrt)) &&
        decide (id > self.committedTimestamp)) = false := by
      rw [Bool.eq_false_iff]
      intro both
      simp only [Bool.and_eq_true, isAfterMrt_iff, decide_eq_true_eq] at both
      exact allowed ⟨both.2, both.1⟩
    simp only [write, refused]
    rfl

/-- Every outcome of `check_commit`: nothing to commit without a pending write; the check's
verdict for the oldest pending writer; a wait for the oldest writer, who is then older. -/
theorem checkCommit_cases [Checkable α] (self : TimestampedObject α) (id : TransactionId) :
    (self.tentativeWrites.get? id = none ∧ self.checkCommit id = .ok .nothingToCommit) ∨
    (∃ tw, self.tentativeWrites.get? id = some tw ∧ self.tentativeWrites.firstKey? = some id ∧
      (Checkable.check tw.value = .ok () ∧ self.checkCommit id = .ok (.commitValue ()) ∨
       ∃ e, Checkable.check tw.value = .error e ∧
        self.checkCommit id = .error (.consistencyCheckFailed e))) ∨
    (∃ first, self.tentativeWrites.containsKey id = true ∧
      self.tentativeWrites.firstKey? = some first ∧ first < id ∧
      self.checkCommit id = .error (.waitFor first)) := by
  cases stored : self.tentativeWrites.get? id with
  | none =>
    have absent : self.tentativeWrites.containsKey id = false := by
      simp [BTreeMap.containsKey, stored]
    exact .inl ⟨rfl, by simp [checkCommit, absent]⟩
  | some tw =>
    have contained := BTreeMap.containsKey_iff.2 ⟨tw, stored⟩
    cases first : self.tentativeWrites.firstKey? with
    | none => simp [BTreeMap.firstKey?_eq_none first id] at contained
    | some oldest =>
      have least := (BTreeMap.firstKey?_eq_some_iff.1 first).2 id contained
      by_cases own : id = oldest
      · subst own
        refine .inr (.inl ⟨tw, rfl, rfl, ?_⟩)
        cases verdict : Checkable.check tw.value with
        | ok u => exact .inl ⟨rfl, by simp [checkCommit, contained, first, stored, verdict]⟩
        | error e => exact .inr ⟨e, rfl, by simp [checkCommit, contained, first, stored, verdict]⟩
      · exact .inr (.inr ⟨oldest, contained, rfl, lt_of_le_of_ne least (Ne.symm own),
          by simp [checkCommit, contained, first, own]⟩)

/-- `check_commit` allows a commit only of the oldest pending writer, whose value passes. -/
theorem checkCommit_eq_commitValue [Checkable α] {u : Unit}
    (allowed : self.checkCommit id = .ok (.commitValue u)) :
    ∃ tw, self.tentativeWrites.get? id = some tw ∧ self.tentativeWrites.firstKey? = some id ∧
      Checkable.check tw.value = .ok () := by
  rcases checkCommit_cases self id with ⟨_, nothing⟩ |
      ⟨tw, stored, first, ⟨passes, _⟩ | ⟨e, _, failed⟩⟩ | ⟨_first, _, _, _, waits⟩
  · simp [nothing] at allowed
  · exact ⟨tw, stored, first, passes⟩
  · simp [failed] at allowed
  · simp [waits] at allowed

/-- Every outcome of `commit`: no change when there is nothing to commit; the failure of
`check_commit`, with no change; or the pending write installed under its writer. -/
theorem commit_cases [Checkable α] (self : TimestampedObject α) (id : TransactionId) :
    (self.checkCommit id = .ok .nothingToCommit ∧
      self.commit id = (.ok (.noChange self.value), self)) ∨
    (∃ e, self.checkCommit id = .error e ∧ self.commit id = (.error e, self)) ∨
    (∃ tw, self.tentativeWrites.get? id = some tw ∧
      self.checkCommit id = .ok (.commitValue ()) ∧
      self.commit id = (.ok (.valueChanged tw.value), { self with
        tentativeWrites := self.tentativeWrites.remove id
        committedTimestamp := id
        value := tw.value })) := by
  cases verdict : self.checkCommit id with
  | error e => exact .inr (.inl ⟨e, rfl, by simp [commit, verdict]⟩)
  | ok success =>
    cases success with
    | nothingToCommit => exact .inl ⟨rfl, by simp [commit, verdict]⟩
    | commitValue u =>
      obtain ⟨tw, stored, -, -⟩ := checkCommit_eq_commitValue verdict
      exact .inr (.inr ⟨tw, stored, rfl, by simp [commit, verdict, BTreeMap.removeEntry, stored]⟩)

/-- A commit that changes the value installs the oldest pending write, which passed the
check, and makes its writer the committed one. -/
theorem commit_eq_valueChanged [Checkable α] {value : α}
    (changed : (self.commit id).1 = .ok (.valueChanged value)) :
    ∃ tw, self.tentativeWrites.get? id = some tw ∧ self.tentativeWrites.firstKey? = some id ∧
      Checkable.check tw.value = .ok () ∧ value = tw.value ∧
      (self.commit id).2 = { self with
        tentativeWrites := self.tentativeWrites.remove id
        committedTimestamp := id
        value := tw.value } := by
  rcases commit_cases self id with ⟨_, unchanged⟩ | ⟨e, _, failed⟩ | ⟨tw, stored, allowed, done⟩
  · simp [unchanged] at changed
  · simp [failed] at changed
  · obtain ⟨checked, same, first, passes⟩ := checkCommit_eq_commitValue allowed
    rw [stored, Option.some.injEq] at same
    subst same
    rw [done, Except.ok.injEq, CommitSuccess.valueChanged.injEq] at changed
    exact ⟨tw, stored, first, passes, changed.symm, by rw [done]⟩

/-! ## What each operation leaves unchanged -/

/-- A read changes the object only by recording its reader, and only when it succeeds. -/
theorem read_state (self : TimestampedObject α) (id : TransactionId) :
    (self.read id).2 = { self with readTimestamps :=
      if (self.read id).1.isOk then self.readTimestamps.insert id else self.readTimestamps } := by
  rcases read_cases self id with ⟨_, done⟩ | ⟨_, _, _, done⟩ | ⟨_, _, ⟨_, done⟩ | ⟨_, done⟩⟩ |
      ⟨_, _, _, _, _, _, done⟩ <;> simp [done, Except.isOk, Except.toBool]

/-- What a read returns does not depend on the recorded readers. -/
theorem read_with_readers (self : TimestampedObject α) (readers : BTreeSet TransactionId)
    (id : TransactionId) : ({ self with readTimestamps := readers }.read id).1 = (self.read id).1 := by
  unfold read
  split <;> (try split) <;> (try split) <;> simp_all

/-- A commit neither reads nor changes the recorded readers. -/
theorem commit_with_readers [Checkable α] (self : TimestampedObject α)
    (readers : BTreeSet TransactionId) (id : TransactionId) :
    { self with readTimestamps := readers }.commit id =
      ((self.commit id).1, { (self.commit id).2 with readTimestamps := readers }) := by
  have checked : ({ self with readTimestamps := readers } : TimestampedObject α).checkCommit id =
      self.checkCommit id := rfl
  unfold commit
  rw [checked]
  cases self.checkCommit id with
  | error e => rfl
  | ok success =>
    cases success with
    | commitValue _ =>
      cases self.tentativeWrites.removeEntry id with
      | mk removed rest => cases removed <;> rfl
    | nothingToCommit => rfl

@[simp] theorem read_value (self : TimestampedObject α) (id : TransactionId) :
    (self.read id).2.value = self.value := by
  rw [read_state]

@[simp] theorem read_committedTimestamp (self : TimestampedObject α) (id : TransactionId) :
    (self.read id).2.committedTimestamp = self.committedTimestamp := by
  rw [read_state]

@[simp] theorem read_tentativeWrites (self : TimestampedObject α) (id : TransactionId) :
    (self.read id).2.tentativeWrites = self.tentativeWrites := by
  rw [read_state]

@[simp] theorem write_value (self : TimestampedObject α) (id : TransactionId) (value : α) :
    (self.write id value).2.value = self.value := by
  rcases write_cases self id value with ⟨_, _, done⟩ | ⟨_, done⟩ <;> simp [done]

@[simp] theorem write_committedTimestamp (self : TimestampedObject α) (id : TransactionId)
    (value : α) : (self.write id value).2.committedTimestamp = self.committedTimestamp := by
  rcases write_cases self id value with ⟨_, _, done⟩ | ⟨_, done⟩ <;> simp [done]

@[simp] theorem write_readTimestamps (self : TimestampedObject α) (id : TransactionId)
    (value : α) : (self.write id value).2.readTimestamps = self.readTimestamps := by
  rcases write_cases self id value with ⟨_, _, done⟩ | ⟨_, done⟩ <;> simp [done]

@[simp] theorem commit_readTimestamps [Checkable α] (self : TimestampedObject α)
    (id : TransactionId) : (self.commit id).2.readTimestamps = self.readTimestamps := by
  rcases commit_cases self id with ⟨_, done⟩ | ⟨_, _, done⟩ | ⟨_, _, _, done⟩ <;> simp [done]

/-- A commit either changes nothing or is the one that returns `ValueChanged`. -/
theorem commit_unchanged_or [Checkable α] (self : TimestampedObject α) (id : TransactionId) :
    (self.commit id).2 = self ∨ ∃ value, (self.commit id).1 = .ok (.valueChanged value) := by
  rcases commit_cases self id with ⟨_, done⟩ | ⟨_, _, done⟩ | ⟨tw, _, _, done⟩
  · exact .inl (by rw [done])
  · exact .inl (by rw [done])
  · exact .inr ⟨tw.value, by rw [done]⟩

@[simp] theorem abort_value (self : TimestampedObject α) (id : TransactionId) :
    (self.abort id).value = self.value := rfl

@[simp] theorem abort_committedTimestamp (self : TimestampedObject α) (id : TransactionId) :
    (self.abort id).committedTimestamp = self.committedTimestamp := rfl

@[simp] theorem abort_tentativeWrites (self : TimestampedObject α) (id : TransactionId) :
    (self.abort id).tentativeWrites = self.tentativeWrites.remove id := rfl

@[simp] theorem abort_readTimestamps (self : TimestampedObject α) (id : TransactionId) :
    (self.abort id).readTimestamps = self.readTimestamps.remove id := rfl

end Operations

end TimestampedObject

/-- The consistency check of balances: `check` of `Diffable<BalanceDiff>` for `Balance` in
`lib.rs`, as the test build compiles it, with the error `()` the object tests expect. It
fails on a negative balance. -/
instance : Checkable Int where
  ConsistencyCheckError := Unit
  check balance := if balance ≥ 0 then .ok () else .error ()

end TxServer
