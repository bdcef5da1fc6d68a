import TxServer.Sharding.Ordering

/-!
# Commits, pending writes and votes

Three facts about what a commit installs. The committed value always passes the
consistency check, because `commit` installs exactly the entry `check_commit` validated
in the same call. A pending write is isolated: no call of another transaction changes
or removes it, and its writer keeps reading it and commits it. And a successful
`check_commit`, the shard's vote in the two-phase commit, keeps the checked write in
place, but it does not stop a transaction older than the voter from writing afterwards:
the voter's commit then waits for it.
-/

namespace TxServer

/-- A call that leaves `id`'s pending write in place: a read or a write by anyone, or a
commit check, a commit or an abort of another transaction. -/
def Op.sparesWriteOf {α : Type} (id : TransactionId) : Op α → Bool
  | .read _ | .write _ _ => true
  | .checkCommit other | .commit other | .abort other => other != id

/-- `current`, replaced by the value of `id`'s write if the call is one that succeeded. -/
def writtenValue {α : Type} [Checkable α] (id : TransactionId) (current : α) :
    Op α × Outcome α → α
  | (.write writer value, .write (.ok ())) => if writer = id then value else current
  | _ => current

/-- Only a successful write changes the value `writtenValue` follows. -/
theorem writtenValue_of_unwritten {α : Type} [Checkable α] {id : TransactionId} {current : α}
    {op : Op α} {outcome : Outcome α}
    (unwritten : ∀ writer value, op = .write writer value → outcome ≠ .write (.ok ())) :
    writtenValue id current (op, outcome) = current := by
  cases op with
  | write writer value =>
    cases outcome with
    | write result =>
      cases result with
      | ok _ => exact absurd rfl (unwritten writer value rfl)
      | error _ => rfl
    | _ => rfl
  | _ => rfl

/-- The value of `id`'s last successful write in a history, or `initial` without one. -/
def lastWriteOf {α : Type} [Checkable α] (id : TransactionId) (initial : α)
    (history : List (Op α × Outcome α)) : α :=
  history.foldl (writtenValue id) initial

namespace TimestampedObject

variable {α : Type} [Checkable α]

/-! ## The committed value passes the check -/

/-- Every operation keeps a committed value that passes `check`. -/
theorem check_step {self : TimestampedObject α} (passes : Checkable.check self.value = .ok ())
    (op : Op α) : Checkable.check (self.step op).2.value = .ok () := by
  cases op with
  | commit id =>
    rcases commit_unchanged_or self id with same | ⟨value, changed⟩
    · simpa [step, same] using passes
    · obtain ⟨tw, _, _, checked, _, done⟩ := commit_eq_valueChanged changed
      simpa [step, done] using checked
  | _ => simpa [step] using passes

/-- The committed value always satisfies the consistency check: when the default value
passes it, so does the value of every state a run from a new object reaches. -/
theorem committed_value_passes_check [Inhabited α] (ownerId : NodeId)
    (defaultPasses : Checkable.check (Inhabited.default : α) = .ok ()) (ops : List (Op α)) :
    Checkable.check ((default ownerId : TimestampedObject α).run ops).value = .ok () :=
  run_induction (fun self => Checkable.check self.value = .ok ()) (fun _ => True)
    (fun _ op _ passes => check_step passes op) (fun _ _ => trivial) defaultPasses

/-- A negative write is never committed: its commit fails the check and a later positive
one commits. -/
theorem balance_passes_check_after_run :
    Checkable.check (Inhabited.default : Int) = .ok () ∧
      Checkable.check ((default 'A' : TimestampedObject Int).run
        [.write ⟨1, 'B'⟩ (-5), .write ⟨2, 'B'⟩ 7, .commit ⟨1, 'B'⟩, .abort ⟨1, 'B'⟩,
          .commit ⟨2, 'B'⟩]).value = .ok () :=
  ⟨rfl, committed_value_passes_check 'A' rfl _⟩

/-! ## Pending writes are isolated -/

/-- `id` is pending with `value`, above the committed writer. -/
def PendingWith (id : TransactionId) (value : α) (self : TimestampedObject α) : Prop :=
  self.committedTimestamp < id ∧ self.tentativeWrites.get? id = some ⟨value⟩

/-- A commit of another transaction removes only its own write, and the timestamp it
installs stays below every writer still pending. -/
theorem commit_spares {self : TimestampedObject α} {id other : TransactionId}
    (distinct : other ≠ id) {tw : TentativeWrite α}
    (stored : self.tentativeWrites.get? id = some tw) :
    (self.commit other).2.tentativeWrites.get? id = some tw ∧
      ((self.commit other).2.committedTimestamp = self.committedTimestamp ∨
        (self.commit other).2.committedTimestamp < id) := by
  rcases commit_unchanged_or self other with same | ⟨value, changed⟩
  · simp [same, stored]
  · obtain ⟨_, _, first, _, _, done⟩ := commit_eq_valueChanged changed
    have least := (BTreeMap.firstKey?_eq_some_iff.1 first).2 id
      (BTreeMap.containsKey_iff.2 ⟨tw, stored⟩)
    simp only [done, BTreeMap.get?_remove, if_neg (Ne.symm distinct), stored, true_and]
    exact .inr (lt_of_le_of_ne least distinct)

/-- An operation that spares `id`'s write keeps it pending, with the value of `id`'s last write. -/
theorem pendingWith_step {id : TransactionId} {current : α} {self : TimestampedObject α}
    (pending : PendingWith id current self) (op : Op α) (spared : op.sparesWriteOf id = true) :
    PendingWith id (writtenValue id current (op, (self.step op).1)) (self.step op).2 := by
  obtain ⟨after, stored⟩ := pending
  cases op with
  | read reader => simpa [step, writtenValue, PendingWith] using ⟨after, stored⟩
  | write writer value =>
    rcases write_cases self writer value with ⟨_, _, done⟩ | ⟨_, done⟩
    · by_cases own : writer = id
      · subst own
        simp [step, done, writtenValue, PendingWith, after]
      · simp [step, done, writtenValue, PendingWith, own, Ne.symm own, after, stored]
    · simpa [step, done, writtenValue, PendingWith] using ⟨after, stored⟩
  | checkCommit other => exact ⟨after, stored⟩
  | commit other =>
    have distinct : other ≠ id := by simpa [Op.sparesWriteOf] using spared
    obtain ⟨kept, timestamp⟩ := commit_spares distinct stored
    refine ⟨?_, kept⟩
    rcases timestamp with same | below
    · simpa [step, same] using after
    · exact below
  | abort other =>
    have distinct : other ≠ id := by simpa [Op.sparesWriteOf] using spared
    simp [step, writtenValue, PendingWith, after, stored, Ne.symm distinct]

/-- So does every run of such operations. -/
theorem pendingWith_run {id : TransactionId} (ops : List (Op α))
    (spared : ∀ op ∈ ops, op.sparesWriteOf id = true) :
    ∀ {self : TimestampedObject α} {current : α}, PendingWith id current self →
      PendingWith id (lastWriteOf id current (self.history ops)) (self.run ops) := by
  induction ops with
  | nil => intro self current pending; exact pending
  | cons op ops ih =>
    intro self current pending
    exact ih (fun later mem => spared later (List.mem_cons_of_mem op mem))
      (pendingWith_step pending op (spared op (List.mem_cons_self op ops)))

/-- Without writes by `id`, a history leaves the value `lastWriteOf` starts from. -/
theorem lastWriteOf_of_no_writes {id : TransactionId} (ops : List (Op α))
    (noWrites : ∀ op ∈ ops, ∀ other, op ≠ .write id other) :
    ∀ (self : TimestampedObject α) (current : α), lastWriteOf id current (self.history ops) = current := by
  induction ops with
  | nil => intro _ _; rfl
  | cons op ops ih =>
    intro self current
    have kept : writtenValue id current (op, (self.step op).1) = current := by
      cases op with
      | write writer value =>
        have distinct : writer ≠ id := fun same =>
          noWrites _ (List.mem_cons_self _ _) value (by rw [same])
        show writtenValue id current (.write writer value, .write (self.write writer value).1) = current
        cases (self.write writer value).1 <;> simp [writtenValue, distinct]
      | _ => rfl
    show List.foldl (writtenValue id) (writtenValue id current (op, (self.step op).1)) _ = current
    rw [kept]
    exact ih (fun later mem => noWrites later (List.mem_cons_of_mem op mem)) _ current

/-- A pending writer that commits installs its own pending value. -/
theorem commit_of_pending {self : TimestampedObject α} {id : TransactionId}
    {tw : TentativeWrite α} (stored : self.tentativeWrites.get? id = some tw)
    {success : CommitSuccess α} (committed : (self.commit id).1 = .ok success) :
    success = .valueChanged tw.value ∧ (self.commit id).2.value = tw.value ∧
      (self.commit id).2.committedTimestamp = id := by
  rcases commit_cases self id with ⟨nothing, _⟩ | ⟨e, _, done⟩ | ⟨found, found', _, done⟩
  · rcases checkCommit_cases self id with ⟨absent, _⟩ | ⟨_, _, _, ⟨_, verdict⟩ | ⟨_, _, verdict⟩⟩ |
        ⟨_, _, _, _, verdict⟩
    · simp [stored] at absent
    all_goals simp [verdict] at nothing
  · simp [done] at committed
  · rw [stored, Option.some.injEq] at found'
    subst found'
    rw [done, Except.ok.injEq] at committed
    simp [done, committed]

/-- Tentative writes are isolated and read-your-writes holds. After a successful
`write(id, value)` and any calls by other transactions, interleaved with reads and writes
by `id`, the pending write of `id` holds the value of its last successful write; `id` reads
that value, and a commit by `id` that succeeds installs it under `id`. Without further
writes by `id` that value is `value`. -/
theorem pending_write_isolated (self : TimestampedObject α) (id : TransactionId) (value : α)
    (written : (self.write id value).1 = .ok ()) (ops : List (Op α))
    (spared : ∀ op ∈ ops, op.sparesWriteOf id = true) :
    ((self.write id value).2.run ops).tentativeWrites.get? id =
        some ⟨lastWriteOf id value ((self.write id value).2.history ops)⟩ ∧
      (((self.write id value).2.run ops).read id).1 =
        .ok (lastWriteOf id value ((self.write id value).2.history ops)) ∧
      (∀ success, (((self.write id value).2.run ops).commit id).1 = .ok success →
        success = .valueChanged (lastWriteOf id value ((self.write id value).2.history ops)) ∧
        (((self.write id value).2.run ops).commit id).2.value =
          lastWriteOf id value ((self.write id value).2.history ops) ∧
        (((self.write id value).2.run ops).commit id).2.committedTimestamp = id) ∧
      ((∀ op ∈ ops, ∀ other, op ≠ .write id other) →
        lastWriteOf id value ((self.write id value).2.history ops) = value) := by
  have start : PendingWith id value (self.write id value).2 := by
    rcases write_cases self id value with ⟨after, _, done⟩ | ⟨_, done⟩
    · simp [PendingWith, done, after]
    · simp [done] at written
  obtain ⟨after, stored⟩ := pendingWith_run ops spared start
  refine ⟨stored, by rw [read_of_get? after stored], fun success committed =>
    commit_of_pending stored committed,
    fun noWrites => lastWriteOf_of_no_writes ops noWrites _ value⟩

/-- A write survives an older writer's commit, which changes the value to 10, its writer's
read and its writer's rewrite. -/
theorem own_write_survives_older_commit :
    ((default 'A' : TimestampedObject Int).write ⟨2, 'B'⟩ 20).1 = .ok () ∧
      (∀ op ∈ ([.write ⟨1, 'B'⟩ 10, .commit ⟨1, 'B'⟩, .read ⟨2, 'B'⟩, .write ⟨2, 'B'⟩ 25] :
        List (Op Int)), op.sparesWriteOf ⟨2, 'B'⟩ = true) ∧
      ((((default 'A' : TimestampedObject Int).write ⟨2, 'B'⟩ 20).2.run
        [.write ⟨1, 'B'⟩ 10]).commit ⟨1, 'B'⟩).1 = .ok (.valueChanged 10) ∧
      ((((default 'A' : TimestampedObject Int).write ⟨2, 'B'⟩ 20).2.run
        [.write ⟨1, 'B'⟩ 10, .commit ⟨1, 'B'⟩, .read ⟨2, 'B'⟩, .write ⟨2, 'B'⟩ 25]).read
          ⟨2, 'B'⟩).1 = .ok 25 :=
  ⟨rfl, by decide, rfl, (pending_write_isolated (default 'A' : TimestampedObject Int) ⟨2, 'B'⟩ 20
    rfl [.write ⟨1, 'B'⟩ 10, .commit ⟨1, 'B'⟩, .read ⟨2, 'B'⟩, .write ⟨2, 'B'⟩ 25]
    (by decide)).2.1⟩

/-! ## What a successful vote guarantees -/

/-- A call of another transaction leaves `id`'s pending write as it is. -/
theorem get?_step_of_ne {self : TimestampedObject α} {id : TransactionId} (op : Op α)
    (other : op.id ≠ id) :
    (self.step op).2.tentativeWrites.get? id = self.tentativeWrites.get? id := by
  rcases tentativeWrites_step self op with ⟨writer, value, rfl, -, -, -, done⟩ |
      ⟨committer, value, rfl, -, done⟩ | ⟨aborter, rfl, done⟩ | ⟨-, -, done⟩ <;>
    (try simp only [Op.id] at other) <;> simp [done, Ne.symm other]

/-- A run of other transactions' operations leaves `id`'s pending write as it was. -/
theorem get?_run_of_ne {id : TransactionId} (ops : List (Op α)) (others : ∀ op ∈ ops, op.id ≠ id) :
    ∀ {self : TimestampedObject α},
      (self.run ops).tentativeWrites.get? id = self.tentativeWrites.get? id := by
  induction ops with
  | nil => intro self; rfl
  | cons op ops ih =>
    intro self
    rw [run_cons, ih (fun later mem => others later (List.mem_cons_of_mem op mem)),
      get?_step_of_ne op (others op (List.mem_cons_self op ops))]

/-- A writer with a pending value that passes the check commits it, or waits for an older
pending writer. -/
theorem commit_of_checked {self : TimestampedObject α} {id : TransactionId}
    {tw : TentativeWrite α} (stored : self.tentativeWrites.get? id = some tw)
    (passes : Checkable.check tw.value = .ok ()) :
    (self.commit id).1 = .ok (.valueChanged tw.value) ∨
      ∃ older, older < id ∧ self.tentativeWrites.containsKey older = true ∧
        (self.commit id).1 = .error (.waitFor older) := by
  rcases checkCommit_cases self id with ⟨absent, _⟩ | ⟨_, found, _, ⟨_, verdict⟩ | ⟨e, failed, _⟩⟩ |
      ⟨first, _, oldest, older, verdict⟩
  · simp [stored] at absent
  · rcases commit_cases self id with ⟨nothing, _⟩ | ⟨e, failed, _⟩ | ⟨tw', found', _, done⟩
    · simp [verdict] at nothing
    · simp [verdict] at failed
    · rw [stored, Option.some.injEq] at found'
      subst found'
      exact .inl (by rw [done])
  · rw [stored, Option.some.injEq] at found
    subst found
    simp [passes] at failed
  · refine .inr ⟨first, older, (BTreeMap.firstKey?_eq_some_iff.1 oldest).1, ?_⟩
    rcases commit_cases self id with ⟨nothing, _⟩ | ⟨e, failed, done⟩ | ⟨_, _, allowed, _⟩
    · simp [verdict] at nothing
    · rw [done]
      simp only [verdict, Except.error.injEq] at failed
      rw [failed]
    · simp [verdict] at allowed

/-- A call of another transaction that writes, if at all, above the oldest pending writer,
keeps it the oldest. -/
theorem firstKey?_step {self : TimestampedObject α} {id : TransactionId}
    (first : self.tentativeWrites.firstKey? = some id) (op : Op α) (other : op.id ≠ id)
    (younger : ∀ writer value, op = .write writer value → id < writer) :
    (self.step op).2.tentativeWrites.firstKey? = some id := by
  rcases tentativeWrites_step self op with ⟨writer, value, rfl, -, -, -, done⟩ |
      ⟨committer, value, rfl, changed, -⟩ | ⟨aborter, rfl, done⟩ | ⟨-, -, done⟩
  · rw [done]
    exact BTreeMap.firstKey?_insert_of_lt first (younger writer value rfl)
  · obtain ⟨_, _, oldest, _, _, _⟩ := commit_eq_valueChanged changed
    rw [first, Option.some.injEq] at oldest
    exact absurd oldest.symm other
  · rw [done]
    exact BTreeMap.firstKey?_remove_of_ne first other
  · rw [done, first]

/-- A run of other transactions, whose writers are younger, keeps `id` the oldest pending writer. -/
theorem firstKey?_run {id : TransactionId} (ops : List (Op α)) (others : ∀ op ∈ ops, op.id ≠ id)
    (younger : ∀ op ∈ ops, ∀ writer value, op = .write writer value → id < writer) :
    ∀ {self : TimestampedObject α}, self.tentativeWrites.firstKey? = some id →
      (self.run ops).tentativeWrites.firstKey? = some id := by
  induction ops with
  | nil => intro self first; exact first
  | cons op ops ih =>
    intro self first
    exact ih (fun later mem => others later (List.mem_cons_of_mem op mem))
      (fun later mem => younger later (List.mem_cons_of_mem op mem))
      (firstKey?_step first op (others op (List.mem_cons_self op ops))
        (younger op (List.mem_cons_self op ops)))

/-- A successful vote keeps the checked write in place, and the voter's commit never meets
`ConsistencyCheckFailed` or `NoChange`. Whatever other transactions do after the vote, the
commit installs the checked value or waits for an older pending writer; when none of them
writes below the voter, it installs the checked value. -/
theorem vote_keeps_checked_write (self : TimestampedObject α) (id : TransactionId)
    (voted : self.checkCommit id = .ok (.commitValue ())) (ops : List (Op α))
    (others : ∀ op ∈ ops, op.id ≠ id) :
    ∃ tw, self.tentativeWrites.get? id = some tw ∧ Checkable.check tw.value = .ok () ∧
      (self.run ops).tentativeWrites.get? id = some tw ∧
      ((((self.run ops).commit id).1 = .ok (.valueChanged tw.value)) ∨
        ∃ older, older < id ∧ (self.run ops).tentativeWrites.containsKey older = true ∧
          ((self.run ops).commit id).1 = .error (.waitFor older)) ∧
      ((∀ op ∈ ops, ∀ writer value, op = .write writer value → id < writer) →
        ((self.run ops).commit id).1 = .ok (.valueChanged tw.value)) := by
  obtain ⟨tw, stored, first, passes⟩ := checkCommit_eq_commitValue voted
  have kept : (self.run ops).tentativeWrites.get? id = some tw := by
    rw [get?_run_of_ne ops others, stored]
  refine ⟨tw, stored, passes, kept, commit_of_checked kept passes, fun younger => ?_⟩
  have oldest := firstKey?_run ops others younger first
  rcases commit_of_checked kept passes with changed | ⟨older, below, held, -⟩
  · exact changed
  · exact absurd ((BTreeMap.firstKey?_eq_some_iff.1 oldest).2 older held) (not_le.2 below)

/-- The checked write survives an older transaction's later write. -/
theorem vote_survives_older_write :
    ((default 'A' : TimestampedObject Int).write ⟨2, 'B'⟩ 10).2.checkCommit ⟨2, 'B'⟩ =
        .ok (.commitValue ()) ∧
      (∀ op ∈ ([.write ⟨1, 'B'⟩ 5] : List (Op Int)), op.id ≠ ⟨2, 'B'⟩) ∧
      ∃ tw : TentativeWrite Int, (((default 'A' : TimestampedObject Int).write ⟨2, 'B'⟩ 10).2.run
        [.write ⟨1, 'B'⟩ 5]).tentativeWrites.get? ⟨2, 'B'⟩ = some tw :=
  ⟨rfl, by decide, (vote_keeps_checked_write ((default 'A' : TimestampedObject Int).write ⟨2, 'B'⟩ 10).2
    ⟨2, 'B'⟩ (by rfl) [.write ⟨1, 'B'⟩ 5]
    (by decide)).imp fun _ kept => kept.2.2.1⟩

/-- A vote does not stop an older transaction from writing: after `check_commit` allows the
younger writer's commit, an older transaction writes, and the younger commit waits for it. -/
theorem older_write_after_vote_blocks_commit :
    ((default 'A' : TimestampedObject Int).write ⟨2, 'B'⟩ 10).1 = .ok () ∧
      ((default 'A' : TimestampedObject Int).write ⟨2, 'B'⟩ 10).2.checkCommit ⟨2, 'B'⟩ =
        .ok (.commitValue ()) ∧
      ((((default 'A' : TimestampedObject Int).write ⟨2, 'B'⟩ 10).2.run
        [.write ⟨1, 'B'⟩ 5]).commit ⟨2, 'B'⟩).1 = .error (.waitFor ⟨1, 'B'⟩) :=
  ⟨rfl, rfl, rfl⟩

end TimestampedObject

end TxServer
