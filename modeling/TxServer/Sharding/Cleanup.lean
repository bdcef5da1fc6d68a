import TxServer.Sharding.Commit

/-!
# Cleanup that no call can observe

Two pieces of bookkeeping can be dropped without any call noticing. An object that was
never committed and whose only pending writer aborts is reaped from the shard and made
again on its next use; the aborting call leaves exactly a new object, because while
nothing is committed every recorded reader still has a pending write. And the read
timestamps at or below the committed timestamp never decide an outcome again, so the
`TODO` in `check_commit`, which proposes to drop them at each commit, changes no outcome
of any run.
-/

namespace TxServer

namespace TimestampedObject

variable {α : Type} [Checkable α]

/-! ## Reaping -/

/-- While nothing is committed, the object holds its defaults and every recorded reader
has a pending write. -/
def Unclaimed [Inhabited α] (ownerId : NodeId) (self : TimestampedObject α) : Prop :=
  self.committedTimestamp.isDefault = true →
    self.committedTimestamp = TransactionId.default ownerId ∧ self.value = Inhabited.default ∧
    ∀ reader, self.readTimestamps.contains reader = true →
      self.tentativeWrites.containsKey reader = true

/-- Every operation of an issued transaction keeps an uncommitted object unclaimed. -/
theorem unclaimed_step [Inhabited α] {ownerId : NodeId} {self : TimestampedObject α}
    (holds : Unclaimed ownerId self) (op : Op α) (issued : op.id.isDefault = false) :
    Unclaimed ownerId (self.step op).2 := by
  intro unclaimed
  cases op with
  | read id =>
    rcases read_cases self id with ⟨_, done⟩ | ⟨_, tw, stored, done⟩ |
        ⟨_, _, ⟨_, done⟩ | ⟨committed, done⟩⟩ | ⟨_, _, _, _, _, _, done⟩ <;>
      simp only [step, done] at unclaimed ⊢
    · exact holds unclaimed
    · obtain ⟨timestamp, value, readers⟩ := holds unclaimed
      refine ⟨timestamp, value, fun reader read => ?_⟩
      simp only [BTreeSet.contains_insert, Bool.or_eq_true, decide_eq_true_eq] at read
      rcases read with rfl | read
      · exact BTreeMap.containsKey_iff.2 ⟨tw, stored⟩
      · exact readers reader read
    · exact holds unclaimed
    · simp [committed] at unclaimed
    · exact holds unclaimed
  | write id value =>
    rcases write_cases self id value with ⟨_, _, done⟩ | ⟨_, done⟩ <;>
      simp only [step, done] at unclaimed ⊢
    · obtain ⟨timestamp, value, readers⟩ := holds unclaimed
      exact ⟨timestamp, value, fun reader read => by simp [readers reader read]⟩
    · exact holds unclaimed
  | checkCommit id => exact holds unclaimed
  | commit id =>
    rcases commit_unchanged_or self id with same | ⟨value, changed⟩
    · simp only [step, same] at unclaimed ⊢
      exact holds unclaimed
    · obtain ⟨_, _, _, _, _, done⟩ := commit_eq_valueChanged changed
      simp only [step, done, Op.id] at unclaimed issued
      simp [issued] at unclaimed
  | abort id =>
    simp only [step, abort_committedTimestamp] at unclaimed
    obtain ⟨timestamp, value, readers⟩ := holds unclaimed
    refine ⟨timestamp, value, fun reader read => ?_⟩
    simp only [step, abort_readTimestamps, BTreeSet.contains_remove, Bool.and_eq_true,
      Bool.not_eq_true', decide_eq_false_iff_not] at read
    simp [step, read.1, readers reader read.2]

/-- Reaping is unobservable. In every state a run of calls by issued transactions (counter
at least 1) reaches from a new object, if `can_reap(id)` holds then `abort(id)` leaves
exactly a new object: the default value and committed timestamp, and no reader or pending
write. -/
theorem reaping_is_unobservable [Inhabited α] (ownerId : NodeId) (ops : List (Op α))
    (issued : ∀ op ∈ ops, op.id.isDefault = false) (id : TransactionId)
    (reapable : ((default ownerId : TimestampedObject α).run ops).canReap id = true) :
    ((default ownerId : TimestampedObject α).run ops).abort id = default ownerId := by
  have holds : Unclaimed ownerId ((default ownerId : TimestampedObject α).run ops) :=
    run_induction (Unclaimed ownerId) (fun op => op.id.isDefault = false)
      (fun _ op issued holds => unclaimed_step holds op issued) issued
      (fun _ => ⟨rfl, rfl, by simp [default]⟩)
  generalize (default ownerId : TimestampedObject α).run ops = self at holds reapable
  simp only [canReap, Bool.and_eq_true, Bool.or_eq_true, beq_iff_eq] at reapable
  obtain ⟨unclaimed, only⟩ := reapable
  obtain ⟨timestamp, value, readers⟩ := holds unclaimed
  have onlyPending : ∀ other, self.tentativeWrites.containsKey other = true → other = id := by
    rcases only with empty | ⟨one, held⟩
    · intro other pending
      simp [BTreeMap.containsKey_of_isEmpty empty] at pending
    · exact BTreeMap.eq_of_len_eq_one one held
  have writes := BTreeMap.remove_eq_new onlyPending
  have reads := BTreeSet.remove_eq_new fun reader read => onlyPending reader (readers reader read)
  cases self
  simp_all [abort, default]

/-- A writer that read its own write and is the only one pending is reaped back to a new
object. -/
theorem aborted_only_writer_reaped :
    (∀ op ∈ ([.write ⟨1, 'B'⟩ 5, .read ⟨1, 'B'⟩] : List (Op Int)), op.id.isDefault = false) ∧
      ((default 'A' : TimestampedObject Int).run
        [.write ⟨1, 'B'⟩ 5, .read ⟨1, 'B'⟩]).canReap ⟨1, 'B'⟩ = true ∧
      ((default 'A' : TimestampedObject Int).run
        [.write ⟨1, 'B'⟩ 5, .read ⟨1, 'B'⟩]).abort ⟨1, 'B'⟩ = default 'A' :=
  ⟨by decide, rfl, reaping_is_unobservable 'A' [.write ⟨1, 'B'⟩ 5, .read ⟨1, 'B'⟩] (by decide)
    ⟨1, 'B'⟩ (by rfl)⟩

/-! ## Read timestamps at or below the committed timestamp -/

/-- Two states with the same committed value, committed timestamp and pending writes, whose
readers agree above the committed timestamp. -/
structure ReadersAgreeAbove (state state' : TimestampedObject α) : Prop where
  sameValue : state.value = state'.value
  sameTimestamp : state.committedTimestamp = state'.committedTimestamp
  sameWrites : state.tentativeWrites = state'.tentativeWrites
  readersAbove : ∀ reader, state.committedTimestamp < reader →
    state.readTimestamps.contains reader = state'.readTimestamps.contains reader

section Agreement

variable {self other : TimestampedObject α}

omit [Checkable α] in
/-- Agreement above the committed timestamp is transitive. -/
theorem ReadersAgreeAbove.trans {third : TimestampedObject α}
    (left : ReadersAgreeAbove self other) (right : ReadersAgreeAbove other third) :
    ReadersAgreeAbove self third :=
  ⟨left.sameValue.trans right.sameValue, left.sameTimestamp.trans right.sameTimestamp,
    left.sameWrites.trans right.sameWrites, fun reader above =>
      (left.readersAbove reader above).trans
        (right.readersAbove reader (left.sameTimestamp ▸ above))⟩

omit [Checkable α] in
/-- Agreeing states differ at most in their readers. -/
theorem ReadersAgreeAbove.eq_with (agree : ReadersAgreeAbove self other) :
    other = { self with readTimestamps := other.readTimestamps } := by
  obtain ⟨value, timestamp, writes, -⟩ := agree
  cases self
  cases other
  simp_all

omit [Checkable α] in
/-- Agreeing states read alike and still agree after the read. -/
theorem read_agree (agree : ReadersAgreeAbove self other) (id : TransactionId) :
    (self.read id).1 = (other.read id).1 ∧ ReadersAgreeAbove (self.read id).2 (other.read id).2 := by
  have result : (other.read id).1 = (self.read id).1 := by
    rw [agree.eq_with, read_with_readers]
  refine ⟨result.symm, ?_⟩
  rw [read_state self, read_state other, result]
  refine ⟨agree.sameValue, agree.sameTimestamp, agree.sameWrites, fun reader above => ?_⟩
  split <;> simp [agree.readersAbove reader above]

omit [Checkable α] in
/-- Above the committed timestamp, the agreeing readers are below a writer in both states or
in neither. -/
theorem readers_below_iff (agree : ReadersAgreeAbove self other) {id : TransactionId}
    (after : self.committedTimestamp < id) :
    (∀ reader, self.readTimestamps.contains reader = true → reader ≤ id) ↔
      ∀ reader, other.readTimestamps.contains reader = true → reader ≤ id := by
  constructor <;> intro below reader read <;> by_cases above : self.committedTimestamp < reader
  · exact below reader (by rw [agree.readersAbove reader above]; exact read)
  · exact le_of_lt (lt_of_le_of_lt (not_lt.1 above) after)
  · exact below reader (by rw [← agree.readersAbove reader above]; exact read)
  · exact le_of_lt (lt_of_le_of_lt (not_lt.1 above) after)

omit [Checkable α] in
/-- Agreeing states write alike and still agree after the write. -/
theorem write_agree (agree : ReadersAgreeAbove self other) (id : TransactionId) (value : α) :
    (self.write id value).1 = (other.write id value).1 ∧
      ReadersAgreeAbove (self.write id value).2 (other.write id value).2 := by
  have unchanged : ReadersAgreeAbove { self with tentativeWrites := self.tentativeWrites.insert id ⟨value⟩ }
      { other with tentativeWrites := other.tentativeWrites.insert id ⟨value⟩ } :=
    ⟨agree.sameValue, agree.sameTimestamp, by rw [agree.sameWrites], agree.readersAbove⟩
  rcases write_cases self id value with ⟨after, below, done⟩ | ⟨refused, done⟩ <;>
    rcases write_cases other id value with ⟨after', below', done'⟩ | ⟨refused', done'⟩ <;>
    rw [done, done']
  · exact ⟨rfl, unchanged⟩
  · exact absurd ⟨agree.sameTimestamp ▸ after, (readers_below_iff agree after).1 below⟩ refused'
  · exact absurd ⟨agree.sameTimestamp ▸ after',
      (readers_below_iff agree (agree.sameTimestamp ▸ after')).2 below'⟩ refused
  · exact ⟨rfl, agree⟩

omit [Checkable α] in
/-- Agreeing states still agree after an abort. -/
theorem abort_agree (agree : ReadersAgreeAbove self other) (id : TransactionId) :
    ReadersAgreeAbove (self.abort id) (other.abort id) :=
  ⟨agree.sameValue, agree.sameTimestamp, by simp [agree.sameWrites], fun reader above => by
    simp [agree.readersAbove reader above]⟩

omit [Checkable α] in
/-- Agreeing states agree on whether a transaction can be reaped. -/
theorem canReap_agree (agree : ReadersAgreeAbove self other) (id : TransactionId) :
    self.canReap id = other.canReap id := by
  unfold canReap
  rw [agree.sameTimestamp, agree.sameWrites]

/-- Agreeing states check a commit alike. -/
theorem checkCommit_agree (agree : ReadersAgreeAbove self other) (id : TransactionId) :
    self.checkCommit id = other.checkCommit id := by
  unfold checkCommit
  rw [agree.sameWrites]

/-- Agreeing states commit alike and still agree after the commit. -/
theorem commit_agree (ordered : self.WritersAfterCommit) (agree : ReadersAgreeAbove self other)
    (id : TransactionId) :
    (self.commit id).1 = (other.commit id).1 ∧
      ReadersAgreeAbove (self.commit id).2 (other.commit id).2 := by
  have advanced : self.committedTimestamp ≤ (self.commit id).2.committedTimestamp := by
    rcases commit_unchanged_or self id with same | ⟨value, changed⟩
    · rw [same]
    · obtain ⟨moved, -, above, -⟩ := commit_advances ordered changed
      rw [moved]
      exact le_of_lt above
  rw [agree.eq_with, commit_with_readers self other.readTimestamps id]
  refine ⟨rfl, rfl, rfl, rfl, fun reader above => ?_⟩
  simpa using agree.readersAbove reader (lt_of_le_of_lt advanced above)

/-- So every operation gives agreeing states the same outcome and keeps them agreeing. -/
theorem step_agree (ordered : self.WritersAfterCommit) (agree : ReadersAgreeAbove self other)
    (op : Op α) :
    (self.step op).1 = (other.step op).1 ∧ ReadersAgreeAbove (self.step op).2 (other.step op).2 := by
  cases op with
  | read id =>
    obtain ⟨same, next⟩ := read_agree agree id
    exact ⟨by simp [step, same], next⟩
  | write id value =>
    obtain ⟨same, next⟩ := write_agree agree id value
    exact ⟨by simp [step, same], next⟩
  | checkCommit id => exact ⟨by simp [step, checkCommit_agree agree id], agree⟩
  | commit id =>
    obtain ⟨same, next⟩ := commit_agree ordered agree id
    exact ⟨by simp [step, same], next⟩
  | abort id => exact ⟨rfl, abort_agree agree id⟩

end Agreement

/-- The commit the `TODO` in `check_commit` proposes: the same commit, which then drops every
read timestamp at or below the committed timestamp it leaves. -/
def commitPruned (self : TimestampedObject α) (id : TransactionId) :
    Except (CommitFailure (Checkable.ConsistencyCheckError α)) (CommitSuccess α) ×
      TimestampedObject α :=
  ((self.commit id).1, { (self.commit id).2 with
    readTimestamps := (self.commit id).2.readTimestamps.retain fun reader =>
      decide ((self.commit id).2.committedTimestamp < reader) })

/-- `step`, with commits made by `commitPruned`. -/
def stepPruned (self : TimestampedObject α) : Op α → Outcome α × TimestampedObject α
  | .commit id => (.commit (self.commitPruned id).1, (self.commitPruned id).2)
  | op => self.step op

/-- `history`, with commits made by `commitPruned`. -/
def historyPruned (self : TimestampedObject α) : List (Op α) → List (Op α × Outcome α)
  | [] => []
  | op :: ops => (op, (self.stepPruned op).1) :: (self.stepPruned op).2.historyPruned ops

omit [Checkable α] in
/-- Dropping the readers at or below the committed timestamp leaves an agreeing state. -/
theorem prune_agree (state : TimestampedObject α) :
    ReadersAgreeAbove state { state with
      readTimestamps := state.readTimestamps.retain fun reader =>
        decide (state.committedTimestamp < reader) } :=
  ⟨rfl, rfl, rfl, fun reader above => by simp [above]⟩

/-- A step that prunes readers at a commit keeps agreeing with the step that does not. -/
theorem stepPruned_agree {self other : TimestampedObject α} (ordered : self.WritersAfterCommit)
    (agree : ReadersAgreeAbove self other) (op : Op α) :
    (self.step op).1 = (other.stepPruned op).1 ∧
      ReadersAgreeAbove (self.step op).2 (other.stepPruned op).2 := by
  obtain ⟨same, next⟩ := step_agree ordered agree op
  cases op with
  | commit id => exact ⟨same, next.trans (prune_agree _)⟩
  | _ => exact ⟨same, next⟩

/-- So a run that prunes readers at each commit has the history of the run that does not. -/
theorem history_eq_historyPruned (ops : List (Op α)) :
    ∀ {self other : TimestampedObject α}, self.WritersAfterCommit →
      ReadersAgreeAbove self other → self.history ops = other.historyPruned ops := by
  induction ops with
  | nil => intro _ _ _ _; rfl
  | cons op ops ih =>
    intro self other ordered agree
    obtain ⟨same, next⟩ := stepPruned_agree ordered agree op
    simp only [history_cons, historyPruned, same, ih (writersAfterCommit_step ordered op) next]

/-- Read timestamps at or below the committed timestamp are irrelevant. For two states that
agree except for those readers, and in which every pending writer is above the committed
timestamp, as in every state a run from a new object reaches, every call returns the same
outcome and leaves two states that again agree, and `can_reap` answers the same. Over every
run from a new object, commits that also drop the read timestamps at or below the new
committed timestamp therefore return exactly the outcomes of the run without them. -/
theorem read_timestamps_below_commit_unobservable [Inhabited α] :
    (∀ (self other : TimestampedObject α), self.WritersAfterCommit →
      ReadersAgreeAbove self other → ∀ op : Op α,
        (self.step op).1 = (other.step op).1 ∧
          ReadersAgreeAbove (self.step op).2 (other.step op).2) ∧
    (∀ (self other : TimestampedObject α), ReadersAgreeAbove self other →
      ∀ id, self.canReap id = other.canReap id) ∧
    (∀ (ownerId : NodeId) (ops : List (Op α)),
      (default ownerId : TimestampedObject α).history ops =
        (default ownerId : TimestampedObject α).historyPruned ops) :=
  ⟨fun _ _ ordered agree op => step_agree ordered agree op,
    fun _ _ agree id => canReap_agree agree id,
    fun ownerId ops => history_eq_historyPruned ops (writersAfterCommit_default ownerId)
      ⟨rfl, rfl, rfl, fun _ _ => rfl⟩⟩

end TimestampedObject

end TxServer
