import TxServer.Balance

/-!
# The commit summary

After a `DoCommit` the coordinator's task prints what the local shard's commit changed:
`format_commit_result` sorts the changed entries by key with `sort_unstable_by`, appends a
`k = v ` fragment for every entry whose new balance is not 0, and prints the line, or nothing
when every balance is 0. Keys compare as Rust's `String`s do, by code point, which is the
order of `String` here.

An unstable sort may leave entries with equal keys in either order, so the model fixes one
order, a merge sort by key, and `commit_summary_independent_of_sort` shows that on a result
with distinct keys, as a commit's is, every order the sort may leave prints the same text.
-/

namespace TxServer

/-- One pass of `format_commit_result`'s loop: `output += &format!("{k} = {v} ")` when
`v != 0`. -/
def appendFragment (output : String) (entry : String × Balance) : String :=
  if entry.2 ≠ 0 then output ++ (entry.1 ++ " = " ++ toString entry.2.toInt ++ " ") else output

/-- What `format_commit_result` writes to standard output once its entries are in `sorted`'s
order: the fragments and the newline of `println!`, or nothing when no fragment was added. -/
def printSorted (sorted : List (String × Balance)) : String :=
  let output := sorted.foldl appendFragment ""
  if output.isEmpty then "" else output ++ "\n"

/-- `format_commit_result`, with `sort_unstable_by` on keys done as a merge sort on keys. -/
def formatCommitResult (result : List (String × Balance)) : String :=
  printSorted (result.mergeSort fun left right => decide (left.1 ≤ right.1))

/-- The loop adds text exactly when some entry's value is not 0. -/
theorem foldl_appendFragment_isEmpty (entries : List (String × Balance)) (output : String) :
    (entries.foldl appendFragment output).isEmpty = true ↔
      output.isEmpty = true ∧ ∀ entry ∈ entries, entry.2 = 0 := by
  induction entries generalizing output with
  | nil => simp
  | cons entry rest ih =>
    rw [List.foldl_cons, ih, List.forall_mem_cons, appendFragment]
    by_cases zero : entry.2 = 0
    · simp [zero]
    · have added : (output ++ (entry.1 ++ " = " ++ toString entry.2.toInt ++ " ")).isEmpty =
          false := by
        refine Bool.eq_false_iff.2 fun empty => ?_
        have emptied := congrArg String.length ((String.isEmpty_iff _).1 empty)
        have space : " ".length = 1 := rfl
        have nothing : "".length = 0 := rfl
        simp only [String.length_append] at emptied
        omega
      rw [if_pos zero, added]
      exact iff_of_false (fun empty => Bool.false_ne_true empty.1) fun quiet => zero quiet.2.1

/-- Nothing is printed exactly when every balance is 0. -/
theorem printSorted_eq_empty (sorted : List (String × Balance)) :
    printSorted sorted = "" ↔ ∀ entry ∈ sorted, entry.2 = 0 := by
  have quiet := foldl_appendFragment_isEmpty sorted ""
  simp only [String.isEmpty_iff, true_and] at quiet
  simp only [printSorted, String.isEmpty_iff]
  split_ifs with empty
  · simpa [empty] using quiet
  · simp only [← quiet, empty, iff_false]
    simp [String.ext_iff]

/-- The merge sort by key leaves the entries in key order. -/
theorem sorted_mergeSort_byKey (result : List (String × Balance)) :
    (result.mergeSort fun left right => decide (left.1 ≤ right.1)).Sorted
      fun left right => left.1 ≤ right.1 := by
  simpa using @List.sorted_mergeSort _ (fun left right => decide (left.1 ≤ right.1))
    (fun _ _ _ first second => by simpa using le_trans (by simpa using first) (by simpa using second))
    (fun left right => by simpa using le_total left.1 right.1) result

/-- A key-ordered permutation of entries with distinct keys is strictly ordered by key. -/
theorem sorted_lt_of_perm {entries result : List (String × Balance)}
    (distinct : (result.map Prod.fst).Nodup) (permuted : entries.Perm result)
    (ordered : entries.Sorted fun left right => left.1 ≤ right.1) :
    entries.Sorted fun left right => left.1 < right.1 :=
  (ordered.and (List.pairwise_map.1 ((permuted.map Prod.fst).nodup_iff.2 distinct))).imp
    fun ⟨le, ne⟩ => lt_of_le_of_ne le ne

instance : IsAntisymm (String × Balance) fun left right => left.1 < right.1 :=
  ⟨fun _ _ below above => (lt_asymm below above).elim⟩

/-- On a commit result whose keys are distinct, every order `sort_unstable_by` may leave the
entries in prints what the model prints, and nothing is printed exactly when every new
balance is 0. -/
theorem commit_summary_independent_of_sort (result sorted : List (String × Balance))
    (distinct : (result.map Prod.fst).Nodup) (permuted : sorted.Perm result)
    (ordered : sorted.Sorted fun left right => left.1 ≤ right.1) :
    printSorted sorted = formatCommitResult result ∧
      (formatCommitResult result = "" ↔ ∀ entry ∈ result, entry.2 = 0) := by
  have merged := List.mergeSort_perm result fun left right => decide (left.1 ≤ right.1)
  have same : sorted = result.mergeSort fun left right => decide (left.1 ≤ right.1) :=
    List.eq_of_perm_of_sorted (permuted.trans merged.symm) (sorted_lt_of_perm distinct permuted ordered)
      (sorted_lt_of_perm distinct merged (sorted_mergeSort_byKey result))
  rw [formatCommitResult, printSorted_eq_empty, ← same]
  exact ⟨rfl, by simp only [permuted.mem_iff]⟩

/-- A commit result given out of key order, with one balance changed to 0: sorted, it prints
the other two entries in key order, and nothing for the zero balance. -/
theorem unordered_changes_printed_by_key :
    (([("b", 3), ("a", 0), ("c", -2)] : List (String × Balance)).map Prod.fst).Nodup ∧
      ([("a", 0), ("b", 3), ("c", -2)] : List (String × Balance)).Perm
        [("b", 3), ("a", 0), ("c", -2)] ∧
      (([("a", 0), ("b", 3), ("c", -2)] : List (String × Balance)).Sorted
        fun left right => left.1 ≤ right.1) ∧
      formatCommitResult [("b", 3), ("a", 0), ("c", -2)] = "b = 3 c = -2 \n" ∧
      (formatCommitResult [("b", 3), ("a", 0), ("c", -2)] = "" ↔
        ∀ entry ∈ ([("b", 3), ("a", 0), ("c", -2)] : List (String × Balance)), entry.2 = 0) := by
  have ordered : ([("a", 0), ("b", 3), ("c", -2)] : List (String × Balance)).Sorted
      fun left right => left.1 ≤ right.1 := by
    simp only [List.Sorted, String.le_iff_toList_le]
    decide
  have summary := commit_summary_independent_of_sort [("b", 3), ("a", 0), ("c", -2)]
    [("a", 0), ("b", 3), ("c", -2)] (by decide) (by decide) ordered
  exact ⟨by decide, by decide, ordered, summary.1.symm.trans rfl, summary.2⟩

end TxServer
