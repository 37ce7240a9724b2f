import SelfNodeRemediation.Lib.Chunks

/-!
# Peer batches

The agent asks its peers in batches, and the manager's reboot-time calculator
budgets one peer round by the number of batches. Both sides take the batch
size from `getNextBatchSize` (`internal/utils/peers.go`).

* `getNrOfBatches_eq`: the number of batches in closed form.
* `getNrOfBatches_large`: from 33 nodes on there are eleven batches plus those
  the remainder of the division by ten needs.
* `getNrOfBatches_le_iff`: the number of batches is not monotone, and this is
  exactly when the larger cluster still has at least as many batches.
* `getNrOfBatches_bounded_iff`: the sizes for which the batches after the first
  keep to `MaxNrOfBatchesAfterFirst`.
-/

namespace SelfNodeRemediation

/-! ## 1. The batch size -/

/-- `MinNrOfNodesInBatch` -/
def minNrOfNodesInBatch : Nat := 3

/-- `MaxNrOfBatchesAfterFirst` -/
def maxNrOfBatchesAfterFirst : Nat := 10

/-- The number of nodes to ask in the next batch. -/
def getNextBatchSize (totalNrOfNodes remainingNrOfNodes : Nat) : Nat :=
  let batchSize :=
    if totalNrOfNodes = remainingNrOfNodes then
      minNrOfNodesInBatch
    else
      let batchSize := (totalNrOfNodes - minNrOfNodesInBatch) / maxNrOfBatchesAfterFirst
      if batchSize < minNrOfNodesInBatch then minNrOfNodesInBatch else batchSize
  -- do not ask more than we have in the last batch
  if remainingNrOfNodes < batchSize then remainingNrOfNodes else batchSize

/-- The size of every batch after the first, before the cut to what is left. -/
def laterBatchSize (totalNrOfNodes : Nat) : Nat :=
  max minNrOfNodesInBatch
    ((totalNrOfNodes - minNrOfNodesInBatch) / maxNrOfBatchesAfterFirst)

theorem laterBatchSize_pos (n : Nat) : 0 < laterBatchSize n := by
  unfold laterBatchSize minNrOfNodesInBatch
  omega

theorem getNextBatchSize_first (n : Nat) : getNextBatchSize n n = min 3 n := by
  simp only [getNextBatchSize, minNrOfNodesInBatch, if_true]
  split <;> omega

theorem getNextBatchSize_later {n r : Nat} (h : n ≠ r) :
    getNextBatchSize n r = min (laterBatchSize n) r := by
  simp only [getNextBatchSize, laterBatchSize, if_neg h]
  split <;> split <;> omega

theorem getNextBatchSize_pos (n : Nat) {r : Nat} (hr : 0 < r) : 0 < getNextBatchSize n r := by
  by_cases h : n = r
  · subst h
    rw [getNextBatchSize_first]
    omega
  · rw [getNextBatchSize_later h]
    have := laterBatchSize_pos n
    omega

theorem getNextBatchSize_le (n r : Nat) : getNextBatchSize n r ≤ r := by
  by_cases h : n = r
  · subst h
    rw [getNextBatchSize_first]
    exact Nat.min_le_right 3 n
  · rw [getNextBatchSize_later h]
    exact Nat.min_le_right _ r

/-- The batch sizes of a round over `n` nodes as a chunking rule. -/
def batchSizes (n : Nat) : Chunks.Sizes where
  size := getNextBatchSize n
  pos := fun _ => getNextBatchSize_pos n
  le := getNextBatchSize_le n

/-! ## 2. The number of batches -/

/-- The number of batches needed for the given total number of nodes: the
rounds of the loop that takes the next batch until no node remains. -/
def getNrOfBatches (totalNrOfNodes : Nat) : Nat :=
  Chunks.count (batchSizes totalNrOfNodes) totalNrOfNodes

theorem getNrOfBatches_zero : getNrOfBatches 0 = 0 := Chunks.count_zero

/-- The first batch takes three nodes, every later one `laterBatchSize`. -/
theorem getNrOfBatches_eq {n : Nat} (h : 0 < n) :
    getNrOfBatches n = 1 + (n - 3 + laterBatchSize n - 1) / laterBatchSize n := by
  unfold getNrOfBatches
  have hfirst : (batchSizes n).size n = min 3 n := getNextBatchSize_first n
  have hrest : n - min 3 n = n - 3 := by omega
  rw [Chunks.count_of_pos h, hfirst, hrest, Chunks.count_of_const (laterBatchSize_pos n)]
  intro r hr hle
  exact getNextBatchSize_later (by omega)

/-- Up to 42 nodes every batch has three nodes. -/
theorem getNrOfBatches_small {n : Nat} (h : n ≤ 42) : getNrOfBatches n = (n + 2) / 3 := by
  rcases Nat.eq_zero_or_pos n with rfl | hn
  · exact getNrOfBatches_zero
  · have hb : laterBatchSize n = 3 := by
      unfold laterBatchSize minNrOfNodesInBatch maxNrOfBatchesAfterFirst
      omega
    rw [getNrOfBatches_eq hn, hb]
    omega

/-- The batches beyond the eleven full ones: those needed for what is left of
`n - 3` nodes after ten equal batches. -/
def leftoverBatches (n : Nat) : Nat :=
  ((n - 3) % 10 + (n - 3) / 10 - 1) / ((n - 3) / 10)

theorem getNrOfBatches_large {n : Nat} (h : 33 ≤ n) :
    getNrOfBatches n = 11 + leftoverBatches n := by
  obtain ⟨b, hb⟩ : ∃ b, b = (n - 3) / 10 := ⟨_, rfl⟩
  have hb3 : 3 ≤ b := by omega
  have hlater : laterBatchSize n = b := by
    unfold laterBatchSize minNrOfNodesInBatch maxNrOfBatchesAfterFirst
    omega
  rw [getNrOfBatches_eq (by omega), leftoverBatches, hlater, ← hb]
  have hsplit : n - 3 + b - 1 = ((n - 3) % 10 + b - 1) + b * 10 := by omega
  rw [hsplit, Nat.add_mul_div_left _ _ (by omega)]
  omega

theorem getNrOfBatches_le_eleven {n : Nat} (h : n ≤ 33) : getNrOfBatches n ≤ 11 := by
  rw [getNrOfBatches_small (by omega)]
  omega

/-- Ten equal batches leave something over exactly when ten does not divide
what the first batch has left. -/
theorem leftoverBatches_eq_zero_iff {n : Nat} (h : 33 ≤ n) :
    leftoverBatches n = 0 ↔ 10 ∣ n - 3 := by
  have hb : 0 < (n - 3) / 10 := by omega
  rw [leftoverBatches, Nat.div_eq_zero_iff, Nat.dvd_iff_mod_eq_zero]
  omega

/-- The name of `MaxNrOfBatchesAfterFirst` is a bound only for some sizes. The
size of a later batch is a tenth rounded down, so what the division leaves over
is asked in batches beyond the tenth. The bound holds for the sizes that
batches of the minimal size cover, and above them for those where ten divides
what remains after the first batch. -/
theorem getNrOfBatches_bounded_iff (n : Nat) :
    getNrOfBatches n ≤ 1 + maxNrOfBatchesAfterFirst ↔
      n ≤ minNrOfNodesInBatch * (1 + maxNrOfBatchesAfterFirst) ∨
        maxNrOfBatchesAfterFirst ∣ n - minNrOfNodesInBatch := by
  unfold maxNrOfBatchesAfterFirst minNrOfNodesInBatch
  rcases Nat.lt_or_ge 33 n with hn | hn
  · rw [getNrOfBatches_large hn.le, ← leftoverBatches_eq_zero_iff hn.le]
    omega
  · exact iff_of_true (getNrOfBatches_le_eleven hn) (.inl hn)

/-- With 34 nodes the first batch has three, ten more have three each, and the
last node needs an eleventh batch after the first. -/
theorem getNrOfBatches_beyond_max : ¬ getNrOfBatches 34 ≤ 1 + maxNrOfBatchesAfterFirst := by
  rw [getNrOfBatches_small (by omega)]
  decide

/-- Exactly when a round over `m` of `n` nodes needs no more batches than a
round over all `n`: up to 33 nodes always, and above that when the leftover of
`m` needs no more batches than the leftover of `n`. -/
theorem getNrOfBatches_le_iff {m n : Nat} (h : m ≤ n) :
    getNrOfBatches m ≤ getNrOfBatches n ↔ m ≤ 33 ∨ leftoverBatches m ≤ leftoverBatches n := by
  rcases Nat.lt_or_ge 33 m with hm | hm
  · rw [getNrOfBatches_large (by omega : 33 ≤ m), getNrOfBatches_large (by omega : 33 ≤ n)]
    omega
  · refine ⟨fun _ => .inl hm, fun _ => ?_⟩
    rcases Nat.lt_or_ge 33 n with hn | hn
    · have := getNrOfBatches_le_eleven hm
      rw [getNrOfBatches_large (by omega : 33 ≤ n)]
      omega
    · rw [getNrOfBatches_small (by omega : m ≤ 42), getNrOfBatches_small (by omega : n ≤ 42)]
      omega

end SelfNodeRemediation
