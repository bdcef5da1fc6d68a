import TxServer.Sharding.Run

/-!
# Timestamp order of commits and waits

Every pending writer of an object is younger than its committed writer: `write` refuses
writers at or below the committed timestamp, and `commit` installs only the oldest
pending writer, so every writer left pending is above the new timestamp. From this the
commits of any run from a new object come in strictly increasing timestamp order, and the
committed value is the one of the youngest commit.

Waits need no invariant at all. A read waits for a writer in the range between the
committed writer and the reader, and a commit waits for the oldest pending writer, who is
older than the committer; `write` never waits. So in any collection of objects, whatever
state each is in, the relation "waits for" lies inside the order of ids and has no cycle.
-/

namespace TxServer

namespace TimestampedObject

variable {α : Type} [Checkable α]

/-- Every pending writer is younger than the committed writer. -/
def WritersAfterCommit (self : TimestampedObject α) : Prop :=
  ∀ writer, self.tentativeWrites.containsKey writer = true → self.committedTimestamp < writer

omit [Checkable α] in
/-- A new object has no pending writer. -/
theorem writersAfterCommit_default [Inhabited α] (ownerId : NodeId) :
    (default ownerId : TimestampedObject α).WritersAfterCommit := by
  intro writer pending
  simp [default] at pending

/-- A commit that changes the value installs the oldest pending write: the committed
timestamp moves up to its writer, which is below every writer still pending. -/
theorem commit_advances {self : TimestampedObject α} (ordered : self.WritersAfterCommit)
    {id : TransactionId} {value : α} (changed : (self.commit id).1 = .ok (.valueChanged value)) :
    (self.commit id).2.committedTimestamp = id ∧ (self.commit id).2.value = value ∧
      self.committedTimestamp < id ∧
      ∀ writer, (self.commit id).2.tentativeWrites.containsKey writer = true → id < writer := by
  obtain ⟨tw, stored, first, -, rfl, done⟩ := commit_eq_valueChanged changed
  have least := (BTreeMap.firstKey?_eq_some_iff.1 first).2
  refine ⟨by rw [done], by rw [done],
    ordered id (BTreeMap.containsKey_iff.2 ⟨tw, stored⟩), fun writer pending => ?_⟩
  simp only [done, BTreeMap.containsKey_remove, Bool.and_eq_true, Bool.not_eq_true',
    decide_eq_false_iff_not] at pending
  exact lt_of_le_of_ne (least writer pending.2) (Ne.symm pending.1)

/-- Every operation keeps the pending writers younger than the committed writer. -/
theorem writersAfterCommit_step {self : TimestampedObject α} (ordered : self.WritersAfterCommit)
    (op : Op α) : (self.step op).2.WritersAfterCommit := by
  intro writer pending
  rcases tentativeWrites_step self op with ⟨written, value, rfl, after, -, -, done⟩ |
      ⟨committer, value, rfl, changed, -⟩ | ⟨aborter, rfl, done⟩ | ⟨-, timestamp, done⟩
  · simp only [done, BTreeMap.containsKey_insert, Bool.or_eq_true, decide_eq_true_eq] at pending
    simp only [step, write_committedTimestamp]
    rcases pending with rfl | pending
    · exact after
    · exact ordered writer pending
  · obtain ⟨moved, -, -, above⟩ := commit_advances ordered changed
    simp only [step, moved] at pending ⊢
    exact above writer pending
  · simp only [done, BTreeMap.containsKey_remove, Bool.and_eq_true] at pending
    exact ordered writer pending.2
  · rw [done] at pending
    rw [timestamp]
    exact ordered writer pending

/-- So does every run from a new object. -/
theorem writersAfterCommit_run [Inhabited α] (ownerId : NodeId) (ops : List (Op α)) :
    ((default ownerId : TimestampedObject α).run ops).WritersAfterCommit :=
  run_induction WritersAfterCommit (fun _ => True) (fun _ op _ ordered => writersAfterCommit_step ordered op)
    (fun _ _ => trivial) (writersAfterCommit_default ownerId)

/-- The commit log of a run from a new object matches the object: its writers ascend and
stay at or below the committed timestamp, and it ends with the committed writer and
value, or is empty while the object still holds its defaults. -/
def LogMatches [Inhabited α] (ownerId : NodeId) (self : TimestampedObject α)
    (log : List (TransactionId × α)) : Prop :=
  (log.map Prod.fst).Pairwise (· < ·) ∧ (∀ entry ∈ log, entry.1 ≤ self.committedTimestamp) ∧
  (log.getLast? = some (self.committedTimestamp, self.value) ∨
    log = [] ∧ self.committedTimestamp = TransactionId.default ownerId ∧
      self.value = Inhabited.default)

/-- One operation adds the commit it makes, if any, to the log, which keeps matching the object. -/
theorem logMatches_step [Inhabited α] {ownerId : NodeId} {self : TimestampedObject α}
    {log : List (TransactionId × α)} (ordered : self.WritersAfterCommit)
    (matched : LogMatches ownerId self log) (op : Op α) :
    LogMatches ownerId (self.step op).2 (log ++ (committedEntry (op, (self.step op).1)).toList) := by
  obtain ⟨ascending, below, last⟩ := matched
  cases logged : committedEntry (op, (self.step op).1) with
  | none =>
    obtain ⟨sameTimestamp, sameValue⟩ := step_unlogged self op logged
    rw [Option.toList, List.append_nil]
    unfold LogMatches
    rw [sameTimestamp, sameValue]
    exact ⟨ascending, below, last⟩
  | some entry =>
    obtain ⟨id, value⟩ := entry
    obtain ⟨rfl, changed⟩ := (committedEntry_step self op).1 logged
    obtain ⟨moved, installed, above, -⟩ := commit_advances ordered changed
    have older : ∀ entry ∈ log, entry.1 < id :=
      fun entry mem => lt_of_le_of_lt (below entry mem) above
    show LogMatches ownerId (self.commit id).2 (log ++ [(id, value)])
    refine ⟨?_, fun entry mem => ?_, .inl ?_⟩
    · rw [List.map_append, List.pairwise_append]
      refine ⟨ascending, List.pairwise_singleton _ _, ?_⟩
      simp only [List.map_cons, List.map_nil, List.mem_singleton, List.mem_map]
      rintro _ ⟨entry, mem, rfl⟩ _ rfl
      exact older entry mem
    · rw [moved]
      rcases List.mem_append.1 mem with mem | mem
      · exact le_of_lt (older entry mem)
      · rw [List.mem_singleton.1 mem]
    · simp [moved, installed]

/-- The commit log of a run gains one entry per commit that changed the value. -/
theorem commitLog_cons {entry : Op α × Outcome α} {rest : List (Op α × Outcome α)} :
    commitLog (entry :: rest) = (committedEntry entry).toList ++ commitLog rest := by
  cases logged : committedEntry entry <;> simp [commitLog, List.filterMap_cons, logged]

/-- So does every run, from an object whose pending writers are younger than its committed one. -/
theorem logMatches_run [Inhabited α] (ownerId : NodeId) (ops : List (Op α)) :
    ∀ {self : TimestampedObject α} {log : List (TransactionId × α)}, self.WritersAfterCommit →
      LogMatches ownerId self log →
      LogMatches ownerId (self.run ops) (log ++ commitLog (self.history ops)) := by
  induction ops with
  | nil => intro self log _ matched; simpa [commitLog] using matched
  | cons op ops ih =>
    intro self log ordered matched
    have next := ih (writersAfterCommit_step ordered op) (logMatches_step ordered matched op)
    simpa [commitLog_cons, List.append_assoc] using next

/-- Commits happen in timestamp order. In every state reachable from a new object, every
pending writer is above the committed timestamp; a commit that changes the value installs its
writer's pending write as the value and moves the committed timestamp up to that writer, which
is below every writer left pending; the writers of the commits of the run strictly increase,
and the committed writer and value are those of the last, youngest, commit. -/
theorem commits_in_timestamp_order [Inhabited α] (ownerId : NodeId) (ops : List (Op α)) :
    (∀ writer, ((default ownerId : TimestampedObject α).run ops).tentativeWrites.containsKey
        writer = true → ((default ownerId : TimestampedObject α).run ops).committedTimestamp < writer) ∧
    (∀ id value, (((default ownerId : TimestampedObject α).run ops).commit id).1 =
        .ok (.valueChanged value) →
      (∃ write, ((default ownerId : TimestampedObject α).run ops).tentativeWrites.get? id =
          some write ∧ value = write.value ∧
        (((default ownerId : TimestampedObject α).run ops).commit id).2.value = write.value) ∧
      (((default ownerId : TimestampedObject α).run ops).commit id).2.committedTimestamp = id ∧
      ((default ownerId : TimestampedObject α).run ops).committedTimestamp < id ∧
      ∀ writer, (((default ownerId : TimestampedObject α).run ops).commit id).2.tentativeWrites.containsKey
        writer = true → id < writer) ∧
    ((commitLog ((default ownerId : TimestampedObject α).history ops)).map Prod.fst).Pairwise
      (· < ·) ∧
    ((commitLog ((default ownerId : TimestampedObject α).history ops)).getLast? =
        some (((default ownerId : TimestampedObject α).run ops).committedTimestamp,
          ((default ownerId : TimestampedObject α).run ops).value) ∨
      commitLog ((default ownerId : TimestampedObject α).history ops) = [] ∧
        ((default ownerId : TimestampedObject α).run ops).committedTimestamp =
          TransactionId.default ownerId ∧
        ((default ownerId : TimestampedObject α).run ops).value = Inhabited.default) := by
  have ordered := writersAfterCommit_run ownerId ops
  have matched : LogMatches ownerId ((default ownerId : TimestampedObject α).run ops)
      ([] ++ commitLog ((default ownerId : TimestampedObject α).history ops)) :=
    logMatches_run ownerId ops (writersAfterCommit_default ownerId)
      ⟨List.Pairwise.nil, by simp, .inr ⟨rfl, rfl, rfl⟩⟩
  rw [List.nil_append] at matched
  refine ⟨ordered, fun id value changed => ?_, matched.1, matched.2.2⟩
  obtain ⟨write, stored, -, -, rfl, done⟩ := commit_eq_valueChanged changed
  exact ⟨⟨write, stored, rfl, by rw [done]⟩, (commit_advances ordered changed).1,
    (commit_advances ordered changed).2.2⟩

/-! ## Waits -/

omit [Checkable α] in
/-- A read waits only for an older pending writer. -/
theorem read_waitFor {self : TimestampedObject α} {id waited : TransactionId}
    (waits : (self.read id).1 = .error (.waitFor waited)) :
    waited < id ∧ self.tentativeWrites.containsKey waited = true := by
  rcases read_cases self id with ⟨_, done⟩ | ⟨_, _, _, done⟩ | ⟨_, _, ⟨_, done⟩ | ⟨_, done⟩⟩ |
      ⟨_, _, writer, _, older, pending, done⟩ <;> rw [done] at waits <;> simp at waits
  obtain rfl := waits
  exact ⟨older, pending⟩

/-- A commit check waits only for an older pending writer. -/
theorem checkCommit_waitFor {self : TimestampedObject α} {id waited : TransactionId}
    (waits : self.checkCommit id = .error (.waitFor waited)) :
    waited < id ∧ self.tentativeWrites.containsKey waited = true := by
  rcases checkCommit_cases self id with ⟨_, done⟩ | ⟨tw, _, _, ⟨_, done⟩ | ⟨e, _, done⟩⟩ |
      ⟨first, _, oldest, older, done⟩ <;> rw [done] at waits <;> simp at waits
  obtain rfl := waits
  exact ⟨older, ((BTreeMap.firstKey?_eq_some_iff).1 oldest).1⟩

/-- A commit waits only for an older pending writer. -/
theorem commit_waitFor {self : TimestampedObject α} {id waited : TransactionId}
    (waits : (self.commit id).1 = .error (.waitFor waited)) :
    waited < id ∧ self.tentativeWrites.containsKey waited = true := by
  rcases commit_cases self id with ⟨_, done⟩ | ⟨e, verdict, done⟩ | ⟨_, _, _, done⟩ <;>
    rw [done] at waits <;> simp at waits
  subst waits
  exact checkCommit_waitFor verdict

omit [Checkable α] in
/-- A write never waits. -/
theorem write_ne_waitFor (self : TimestampedObject α) (id : TransactionId) (value : α)
    (waited : TransactionId) : (self.write id value).1 ≠ .error (.waitFor waited) := by
  rcases write_cases self id value with ⟨_, _, done⟩ | ⟨_, done⟩ <;> simp [done]

/-- `id` waits for `waited` at one of a collection of objects: a read, a commit check or a
commit by `id` there returns `WaitFor(waited)`. -/
def WaitsAt (objects : TimestampedObject α → Prop) (id waited : TransactionId) : Prop :=
  ∃ self, objects self ∧ ((self.read id).1 = .error (.waitFor waited) ∨
    self.checkCommit id = .error (.waitFor waited) ∨ (self.commit id).1 = .error (.waitFor waited))

/-- A read, a commit check or a commit that waits names an older pending writer. -/
theorem waitFor_older {self : TimestampedObject α} {id waited : TransactionId}
    (waits : (self.read id).1 = .error (.waitFor waited) ∨
      self.checkCommit id = .error (.waitFor waited) ∨
      (self.commit id).1 = .error (.waitFor waited)) :
    waited < id ∧ self.tentativeWrites.containsKey waited = true := by
  rcases waits with waits | waits | waits
  exacts [read_waitFor waits, checkCommit_waitFor waits, commit_waitFor waits]

/-- One wait descends in the order of ids. -/
theorem WaitsAt.older {objects : TimestampedObject α → Prop} {id waited : TransactionId} :
    WaitsAt objects id waited → waited < id
  | ⟨_, _, waits⟩ => (waitFor_older waits).1

/-- Waits always point to older transactions. In every state, a read, a commit check or a
commit that returns `WaitFor(waited)` names an older transaction with a pending write, and a
write never waits. So in any collection of objects, in any states, a chain of waits only
descends in the order of ids, and no transaction waits on itself through one. -/
theorem waits_point_to_older :
    (∀ (self : TimestampedObject α) (id waited : TransactionId),
      ((self.read id).1 = .error (.waitFor waited) ∨
        self.checkCommit id = .error (.waitFor waited) ∨
        (self.commit id).1 = .error (.waitFor waited)) →
      waited < id ∧ self.tentativeWrites.containsKey waited = true) ∧
    (∀ (self : TimestampedObject α) (id : TransactionId) (value : α) (waited : TransactionId),
      (self.write id value).1 ≠ .error (.waitFor waited)) ∧
    (∀ (objects : TimestampedObject α → Prop) (id waited : TransactionId),
      Relation.TransGen (WaitsAt objects) id waited → waited < id) ∧
    (∀ (objects : TimestampedObject α → Prop) (id : TransactionId),
      ¬Relation.TransGen (WaitsAt objects) id id) := by
  have descends : ∀ (objects : TimestampedObject α → Prop) (id waited : TransactionId),
      Relation.TransGen (WaitsAt objects) id waited → waited < id := by
    intro objects id waited chain
    induction chain with
    | single edge => exact edge.older
    | tail _ edge below => exact edge.older.trans below
  exact ⟨fun _ _ _ => waitFor_older, write_ne_waitFor, descends,
    fun objects id cycle => lt_irrefl id (descends objects id id cycle)⟩

end TimestampedObject

end TxServer
