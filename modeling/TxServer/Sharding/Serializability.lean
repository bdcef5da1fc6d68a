import TxServer.Sharding.Commit

/-!
# Reads in timestamp order

A successful read is serialised at the reader's timestamp. A reader with a pending write
reads its own last write. Any other reader reads the value of the youngest commit below it,
and later commits do not change that. The read records the reader in the read timestamps,
so no older transaction can write afterwards. At the read itself no older writer was pending
above the committed one. So every commit after the read is by a writer at or above the
reader, and the commits below the reader are exactly those before the read, the youngest of
which installed the value read.
-/

namespace TxServer

namespace TimestampedObject

variable {α : Type} [Checkable α]

/-! ## A pending write holds its writer's last write -/

/-- Every pending write holds the value of its writer's last successful write in `history`. -/
def HoldsLastWrites (history : List (Op α × Outcome α)) (self : TimestampedObject α) : Prop :=
  ∀ id tw, self.tentativeWrites.get? id = some tw →
    ∀ initial, lastWriteOf id initial history = tw.value

/-- One more entry of a history updates the last write by that entry alone. -/
theorem lastWriteOf_append (id : TransactionId) (initial : α)
    (history : List (Op α × Outcome α)) (entry : Op α × Outcome α) :
    lastWriteOf id initial (history ++ [entry]) =
      writtenValue id (lastWriteOf id initial history) entry := by
  simp [lastWriteOf, List.foldl_append]

/-- A call other than a successful write only removes pending writes. -/
theorem get?_step_of_unwritten {self : TimestampedObject α} (op : Op α) {id : TransactionId}
    {tw : TentativeWrite α} (stored : (self.step op).2.tentativeWrites.get? id = some tw) :
    (self.tentativeWrites.get? id = some tw ∧
        ∀ current, writtenValue id current (op, (self.step op).1) = current) ∨
      (op = .write id tw.value ∧ (self.step op).1 = .write (.ok ())) := by
  rcases tentativeWrites_step self op with ⟨writer, value, rfl, -, -, written, done⟩ |
      ⟨committer, value, rfl, -, done⟩ | ⟨aborter, rfl, done⟩ | ⟨unwritten, -, done⟩
  · rw [done, BTreeMap.get?_insert] at stored
    split_ifs at stored with own
    · subst own
      exact .inr ⟨by rw [← Option.some.inj stored], written⟩
    · exact .inl ⟨stored, fun _ => by simp [writtenValue, written, Ne.symm own]⟩
  · rw [done, BTreeMap.get?_remove] at stored
    split_ifs at stored
    exact .inl ⟨stored, fun _ => rfl⟩
  · rw [done, BTreeMap.get?_remove] at stored
    split_ifs at stored
    exact .inl ⟨stored, fun _ => rfl⟩
  · exact .inl ⟨done ▸ stored, fun _ => writtenValue_of_unwritten unwritten⟩

/-- Every operation keeps each pending write the value of its writer's last write. -/
theorem holdsLastWrites_step {history : List (Op α × Outcome α)} {self : TimestampedObject α}
    (holds : HoldsLastWrites history self) (op : Op α) :
    HoldsLastWrites (history ++ [(op, (self.step op).1)]) (self.step op).2 := by
  intro id tw stored initial
  rw [lastWriteOf_append]
  rcases get?_step_of_unwritten op stored with ⟨before, kept⟩ | ⟨rfl, written⟩
  · rw [kept, holds id tw before initial]
  · rw [written]
    simp [writtenValue]

/-- So does every run. -/
theorem holdsLastWrites_run (ops : List (Op α)) :
    ∀ {history : List (Op α × Outcome α)} {self : TimestampedObject α},
      HoldsLastWrites history self →
      HoldsLastWrites (history ++ self.history ops) (self.run ops) := by
  induction ops with
  | nil => intro history self holds; simpa using holds
  | cons op ops ih =>
    intro history self holds
    simpa using ih (holdsLastWrites_step holds op)

/-- From a new object, every pending write holds its writer's last write of the run. -/
theorem holdsLastWrites_default [Inhabited α] (ownerId : NodeId) (ops : List (Op α)) :
    HoldsLastWrites ((default ownerId : TimestampedObject α).history ops)
      ((default ownerId : TimestampedObject α).run ops) := by
  have start : HoldsLastWrites [] (default ownerId : TimestampedObject α) :=
    fun id tw stored => by simp [default] at stored
  simpa using holdsLastWrites_run ops start

/-! ## A recorded reader keeps older writers out -/

/-- `reader` is recorded as a reader and no pending writer is older than it. -/
def GuardsBelow (reader : TransactionId) (self : TimestampedObject α) : Prop :=
  self.readTimestamps.contains reader = true ∧
    ∀ writer, self.tentativeWrites.containsKey writer = true → reader ≤ writer

/-- Every operation but the reader's own abort keeps the reader recorded and older writers out. -/
theorem guardsBelow_step {reader : TransactionId} {self : TimestampedObject α}
    (guards : GuardsBelow reader self) (op : Op α) (staying : op ≠ .abort reader) :
    GuardsBelow reader (self.step op).2 := by
  obtain ⟨recorded, above⟩ := guards
  cases op with
  | read id =>
    refine ⟨?_, by simpa [step] using above⟩
    simp only [step, read_state]
    split_ifs <;> simp [recorded]
  | write id value =>
    rcases write_cases self id value with ⟨-, older, done⟩ | ⟨-, done⟩
    · refine ⟨by simpa [step, done] using recorded, fun writer pending => ?_⟩
      simp only [step, done, BTreeMap.containsKey_insert, Bool.or_eq_true,
        decide_eq_true_eq] at pending
      rcases pending with rfl | pending
      · exact older reader recorded
      · exact above writer pending
    · simpa [step, done] using And.intro recorded above
  | checkCommit id => exact ⟨recorded, above⟩
  | commit id =>
    refine ⟨by simpa [step] using recorded, fun writer pending => above writer ?_⟩
    rcases commit_unchanged_or self id with same | ⟨value, changed⟩
    · simpa [step, same] using pending
    · obtain ⟨_, _, _, _, _, done⟩ := commit_eq_valueChanged changed
      simp only [step, done, BTreeMap.containsKey_remove, Bool.and_eq_true] at pending
      exact pending.2
  | abort id =>
    have distinct : id ≠ reader := fun same => staying (by rw [same])
    refine ⟨by simp [step, recorded, Ne.symm distinct], fun writer pending => above writer ?_⟩
    simp only [step, abort_tentativeWrites, BTreeMap.containsKey_remove,
      Bool.and_eq_true] at pending
    exact pending.2

/-- A commit logged while `reader` guards the object is by a writer at or above `reader`. -/
theorem guardsBelow_logged {reader : TransactionId} {self : TimestampedObject α}
    (guards : GuardsBelow reader self) (op : Op α) {entry : TransactionId × α}
    (logged : entry ∈ (committedEntry (op, (self.step op).1)).toList) : reader ≤ entry.1 := by
  obtain ⟨id, value⟩ := entry
  obtain ⟨rfl, changed⟩ := (committedEntry_step self op).1 (Option.mem_toList.1 logged)
  obtain ⟨tw, stored, -⟩ := commit_eq_valueChanged changed
  exact guards.2 id (BTreeMap.containsKey_iff.2 ⟨tw, stored⟩)

/-- Along a run without the reader's abort, every commit in the log is at or above the reader. -/
theorem guardsBelow_run {reader : TransactionId} (ops : List (Op α))
    (staying : ∀ op ∈ ops, op ≠ .abort reader) :
    ∀ {self : TimestampedObject α}, GuardsBelow reader self →
      ∀ entry ∈ commitLog (self.history ops), reader ≤ entry.1 := by
  induction ops with
  | nil => intro self _ entry logged; simp [commitLog] at logged
  | cons op ops ih =>
    intro self guards entry logged
    rw [history_cons, commitLog_cons, List.mem_append] at logged
    rcases logged with now | later
    · exact guardsBelow_logged guards op now
    · exact ih (fun op mem => staying op (List.mem_cons_of_mem _ mem))
        (guardsBelow_step guards op (staying op (List.mem_cons_self op ops))) entry later

/-! ## Reads -/

omit [Checkable α] in
/-- A successful read of a reader without a pending write returns the committed value, from
a committed timestamp that is not the default, and leaves the reader guarding the object. -/
theorem read_committed {self : TimestampedObject α} (ordered : self.WritersAfterCommit)
    {reader : TransactionId} {value : α} (succeeded : (self.read reader).1 = .ok value)
    (unwritten : self.tentativeWrites.get? reader = none) :
    value = self.value ∧ self.committedTimestamp < reader ∧
      self.committedTimestamp.isDefault = false ∧ GuardsBelow reader (self.read reader).2 := by
  rcases read_cases self reader with ⟨-, done⟩ | ⟨-, tw, stored, -⟩ |
      ⟨after, above, ⟨-, done⟩ | ⟨issued, done⟩⟩ | ⟨-, -, _, -, -, -, done⟩
  · simp [done] at succeeded
  · simp [stored] at unwritten
  · simp [done] at succeeded
  · simp only [done, Except.ok.injEq] at succeeded
    refine ⟨succeeded.symm, after, issued, by simp [done], fun writer pending => ?_⟩
    simp only [done] at pending
    exact le_of_lt (above writer pending (ordered writer pending))
  · simp [done] at succeeded

/-- Reads follow timestamp order. Take a run from a new object in which the read of
`reader` after the calls `before` returns `value`, and `reader` does not abort in the calls
`after` that follow. If `reader` had a pending write at the read, `value` is the value of
its last successful write. Otherwise `value` was installed by the commit with the greatest
writer below `reader` among all the commits of the whole run, before or after the read, and
every commit after the read is by a writer at or above `reader`. -/
theorem reads_in_timestamp_order [Inhabited α] (ownerId : NodeId) (before after : List (Op α))
    (reader : TransactionId) (value : α)
    (succeeded : (((default ownerId : TimestampedObject α).run before).read reader).1 = .ok value)
    (staying : ∀ op ∈ after, op ≠ .abort reader) :
    (∀ tw, ((default ownerId : TimestampedObject α).run before).tentativeWrites.get? reader =
        some tw → value = tw.value ∧
          ∀ initial, value = lastWriteOf reader initial
            ((default ownerId : TimestampedObject α).history before)) ∧
    (((default ownerId : TimestampedObject α).run before).tentativeWrites.get? reader = none →
      (∃ writer, writer < reader ∧
        (writer, value) ∈ commitLog ((default ownerId : TimestampedObject α).history
          (before ++ .read reader :: after)) ∧
        ∀ entry ∈ commitLog ((default ownerId : TimestampedObject α).history
          (before ++ .read reader :: after)), entry.1 < reader → entry.1 ≤ writer) ∧
      ∀ entry ∈ commitLog
        ((((default ownerId : TimestampedObject α).run before).read reader).2.history after),
        reader ≤ entry.1) := by
  have ordered := writersAfterCommit_run ownerId before
  refine ⟨fun tw stored => ?_, fun unwritten => ?_⟩
  · have after := ordered reader (BTreeMap.containsKey_iff.2 ⟨tw, stored⟩)
    have own : value = tw.value := by
      simpa [read_of_get? after stored] using succeeded.symm
    exact ⟨own, fun initial => by rw [own, holdsLastWrites_default ownerId before reader tw
      stored initial]⟩
  obtain ⟨rfl, below, issued, guards⟩ := read_committed ordered succeeded unwritten
  have later := guardsBelow_run after staying guards
  obtain ⟨-, atMost, last⟩ : LogMatches ownerId ((default ownerId : TimestampedObject α).run before)
      ([] ++ commitLog ((default ownerId : TimestampedObject α).history before)) :=
    logMatches_run ownerId before (writersAfterCommit_default ownerId)
      ⟨List.Pairwise.nil, by simp, .inr ⟨rfl, rfl, rfl⟩⟩
  rw [List.nil_append] at atMost last
  have youngest := List.mem_of_getLast?_eq_some (last.resolve_right fun empty => by
    simp [empty.2.1, TransactionId.isDefault_default] at issued)
  have whole : commitLog ((default ownerId : TimestampedObject α).history
      (before ++ .read reader :: after)) =
      commitLog ((default ownerId : TimestampedObject α).history before) ++
        commitLog ((((default ownerId : TimestampedObject α).run before).read reader).2.history
          after) := by
    simp [history_append, commitLog, committedEntry, step]
  refine ⟨⟨_, below, ?_, fun entry logged older => ?_⟩, later⟩
  · rw [whole]
    exact List.mem_append_left _ youngest
  · rw [whole, List.mem_append] at logged
    rcases logged with earlier | afterwards
    · exact atMost entry earlier
    · exact absurd (later entry afterwards) (not_le.2 older)

/-- A reader between two commits reads the older one's value, which stays the youngest
commit below it. -/
theorem read_sees_youngest_older_commit :
    (((default 'A' : TimestampedObject Int).run [.write ⟨1, 'B'⟩ 5, .commit ⟨1, 'B'⟩]).read
        ⟨3, 'B'⟩).1 = .ok 5 ∧
      (∀ op ∈ ([.write ⟨4, 'B'⟩ 9, .commit ⟨4, 'B'⟩] : List (Op Int)), op ≠ .abort ⟨3, 'B'⟩) ∧
      ∃ writer, writer < ⟨3, 'B'⟩ ∧ (writer, 5) ∈ commitLog
        ((default 'A' : TimestampedObject Int).history
          [.write ⟨1, 'B'⟩ 5, .commit ⟨1, 'B'⟩, .read ⟨3, 'B'⟩, .write ⟨4, 'B'⟩ 9,
            .commit ⟨4, 'B'⟩]) :=
  ⟨rfl, by decide, ((reads_in_timestamp_order 'A' [.write ⟨1, 'B'⟩ 5, .commit ⟨1, 'B'⟩]
    [.write ⟨4, 'B'⟩ 9, .commit ⟨4, 'B'⟩] ⟨3, 'B'⟩ (5 : Int) (by rfl) (by decide)).2
      (by rfl)).1.imp fun _ found => ⟨found.1, found.2.1⟩⟩

end TimestampedObject

end TxServer
