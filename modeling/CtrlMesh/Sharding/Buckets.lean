import CtrlMesh.Sharding.Partition

/-!
# The buckets each shard receives

`getRange` lays the batches out one after another with the rounded-up size, so the first shards can
use up all buckets. `clearSame` then leaves the hashes of the canary in every batch. Both effects
are described for every layout and every limit.
-/

namespace CtrlMesh.Sharding

open Labels Api Lib

/-- A range is empty exactly when its end lies before its start. -/
theorem intsFrom_eq_nil {s t : Int} : intsFrom s t = [] ↔ t < s := by
  rw [intsFrom, List.map_eq_nil_iff, List.range_eq_nil]
  omega

/-- A shard has a bucket if it starts before the end. -/
theorem getRange_ne_nil {id shardingSize all : Int} (size : 0 < batchSize shardingSize all) :
    (getRange id shardingSize all).2.2 ≠ [] ↔ batchSize shardingSize all * (id - 1) < all := by
  have next : batchSize shardingSize all * id =
      batchSize shardingSize all * (id - 1) + batchSize shardingSize all := by ring
  simp only [getRange, ne_eq, List.map_eq_nil_iff, intsFrom_eq_nil, not_lt]
  split <;> omega

/-- Every shard of the layout has a bucket. -/
def EveryShardFed (shardingSize all : Int) : Prop :=
  ∀ id, 1 ≤ id → id ≤ shardingSize → (getRange id shardingSize all).2.2 ≠ []

section Layouts

variable {shardingSize all : Int}

/-- The last shard starts last, so it decides. -/
theorem everyShardFed_iff_last (size : 0 < batchSize shardingSize all) (shards : 1 ≤ shardingSize) :
    EveryShardFed shardingSize all ↔
      batchSize shardingSize all * (shardingSize - 1) < all := by
  constructor
  · intro fed
    exact (getRange_ne_nil size).mp (fed shardingSize shards le_rfl)
  · intro last id _ inside
    have order : batchSize shardingSize all * (id - 1) ≤
        batchSize shardingSize all * (shardingSize - 1) :=
      Int.mul_le_mul_of_nonneg_left (by omega) size.le
    exact (getRange_ne_nil size).mpr (by omega)

/-- As long as the counts are binary64 numbers, the size of a batch is the exact quotient rounded
up. -/
theorem batchSize_eq (shards : 1 ≤ shardingSize) (enough : shardingSize ≤ all)
    (small : all < 2 ^ 53) : batchSize shardingSize all = ⌈(all : ℚ) / shardingSize⌉ :=
  Binary64.ceil_div (by omega) small (by omega) (by omega)

/-- No shard starves if the shards divide the buckets evenly. -/
theorem everyShardFed_of_dvd (shards : 1 ≤ shardingSize) (enough : shardingSize ≤ all)
    (small : all < 2 ^ 53) (even : shardingSize ∣ all) : EveryShardFed shardingSize all := by
  obtain ⟨each, rfl⟩ := even
  have nonzero : (shardingSize : ℚ) ≠ 0 := by
    norm_cast
    omega
  have size : batchSize shardingSize (shardingSize * each) = each := by
    rw [batchSize_eq shards enough small]
    push_cast
    rw [mul_div_cancel_left₀ _ nonzero, Int.ceil_intCast]
  have positive : 0 < each := by
    by_contra nonpositive
    nlinarith only [nonpositive, shards, enough]
  rw [everyShardFed_iff_last (by omega) shards, size]
  linarith [mul_comm each shardingSize]

/-- 250 shards of 1000 buckets have four each. -/
theorem everyShardFed_of_dvd_thousand : EveryShardFed 250 1000 :=
  everyShardFed_of_dvd (by decide) (by decide) (by decide) (by decide)

end Layouts

/-- The value an `int` holds after a computation with this result. -/
def wrapped (n : Int) : Int := n.bmod (2 ^ 64)

variable {n replicas : Int} {limiter : ObjectLimiter} {flags : Flags} {canary : CanaryConfig}
  {batch : List String}

/-- A result in the range of an `int` is held as it is. -/
theorem wrapped_eq (low : -2 ^ 63 ≤ n) (high : n < 2 ^ 63) : wrapped n = n :=
  Int.bmod_eq_of_le (by omega) (by omega)

/-- A result just above the range is held as a negative number. -/
theorem wrapped_over (low : 2 ^ 63 ≤ n) (high : n < 3 * 2 ^ 63) : wrapped n = n - 2 ^ 64 := by
  rw [wrapped, Int.bmod_def]
  omega

/-- The code gives some bucket to the shard `k`: it starts before the end, and not behind its last
bucket. -/
def Feeds (size buckets k : Int) : Prop :=
  wrapped (size * (k - 1)) < buckets ∧ wrapped (size * (k - 1)) ≤ wrapped (size * k - 1)

section Wrapping

variable {size count buckets k : Int}

/-- Without a wrap a shard has a bucket if it starts before the end. -/
theorem feeds_of_fits (positive : 0 < size) (first : 1 ≤ k) (fits : size * k ≤ 2 ^ 63)
    (starts : size * (k - 1) < buckets) : Feeds size buckets k := by
  have next : size * k = size * (k - 1) + size := by ring
  have low : 0 ≤ size * (k - 1) := Int.mul_nonneg positive.le (by omega)
  rw [Feeds, wrapped_eq (by omega) (by omega), wrapped_eq (by omega) (by omega)]
  omega

/-- A batch that starts in the range of an `int` and ends behind it is empty. -/
theorem not_feeds_of_end (positive : 0 < size) (cap : size ≤ 2 ^ 63) (first : 1 ≤ k)
    (starts : size * (k - 1) < 2 ^ 63) (ends : 2 ^ 63 < size * k) : ¬Feeds size buckets k := by
  have next : size * k = size * (k - 1) + size := by ring
  have low : 0 ≤ size * (k - 1) := Int.mul_nonneg positive.le (by omega)
  rw [Feeds, wrapped_eq (n := size * (k - 1)) (by omega) (by omega),
    wrapped_over (by omega) (by omega)]
  omega

/-- Batches that fill the range of an `int` without a rest are aligned, also where they wrap, and
each starts before the end. -/
theorem feeds_of_aligned (positive : 0 < size) (aligned : size ∣ 2 ^ 63)
    (full : 2 ^ 63 - size < buckets) : Feeds size buckets k := by
  obtain ⟨half, whole⟩ := aligned
  obtain ⟨place, start⟩ : size ∣ wrapped (size * (k - 1)) := by
    rw [wrapped, Int.bmod_eq_self_sub_bdiv_mul]
    refine (Int.dvd_mul_right _ _).sub (Dvd.dvd.mul_left ?_ _)
    exact ⟨half * 2, by push_cast; linarith⟩
  have low : -2 ^ 63 ≤ wrapped (size * (k - 1)) := Int.le_bmod (by decide)
  have high : wrapped (size * (k - 1)) < 2 ^ 63 := Int.bmod_lt (by decide)
  have room : wrapped (size * (k - 1)) + size ≤ 2 ^ 63 := by
    rw [start, whole] at high ⊢
    have less : place < half := lt_of_mul_lt_mul_left high positive.le
    nlinarith only [less, positive]
  have last : wrapped (size * k - 1) = wrapped (size * (k - 1)) + size - 1 := by
    rw [← wrapped_eq (n := wrapped (size * (k - 1)) + size - 1) (by omega) (by omega),
      Int.add_sub_assoc]
    simp only [wrapped]
    rw [Int.bmod_add_bmod]
    congr 1
    ring
  rw [Feeds, last]
  omega

/-- All shards have a bucket if they start before the end and the last one ends in the range of an
`int`, or if the batches fill that range without a rest. -/
theorem feeds_all_iff (positive : 0 < size) (cap : size ≤ 2 ^ 63) (shards : 1 ≤ count)
    (filled : 1 ≤ buckets) (high : buckets < 2 ^ 63) :
    (∀ k, 1 ≤ k → k ≤ count → Feeds size buckets k) ↔
      (size * (count - 1) < buckets ∧ size * count ≤ 2 ^ 63) ∨
        (size ∣ 2 ^ 63 ∧ 2 ^ 63 - size < buckets) := by
  constructor
  · intro fed
    by_cases short : size * (count - 1) < buckets
    · refine .inl ⟨short, ?_⟩
      by_contra beyond
      exact not_feeds_of_end positive cap shards (by omega) (by omega) (fed count shards le_rfl)
    · -- `k` is the last shard that starts before the end, and there is a next one
      obtain ⟨k, starts, ends⟩ : ∃ k, size * (k - 1) < buckets ∧ buckets ≤ size * k := by
        refine ⟨(buckets - 1) / size + 1, ?_, ?_⟩
        · have quotient := Int.mul_ediv_self_le (x := buckets - 1) positive.ne'
          rw [Int.add_sub_cancel]
          omega
        · have remainder := Int.lt_mul_ediv_self_add (x := buckets - 1) positive
          rw [Int.mul_add, Int.mul_one]
          omega
      have first : 1 ≤ k := by nlinarith only [ends, filled, positive]
      have more : k + 1 ≤ count := by nlinarith only [starts, short, positive]
      have upper : size * k ≤ 2 ^ 63 := by
        by_contra beyond
        exact not_feeds_of_end positive cap first (by omega) (by omega) (fed k first (by omega))
      have lower : 2 ^ 63 ≤ size * k := by
        by_contra under
        have next := (fed (k + 1) (by omega) more).1
        rw [Int.add_sub_cancel, wrapped_eq (by omega) (by omega)] at next
        omega
      have whole : 2 ^ 63 = size * k := le_antisymm lower upper
      refine .inr ⟨⟨k, whole⟩, ?_⟩
      rw [whole]
      linarith
  · rintro (⟨starts, fits⟩ | ⟨aligned, full⟩) k first inside
    · have mono : size * k ≤ size * count := Int.mul_le_mul_of_nonneg_left inside positive.le
      refine feeds_of_fits positive first (mono.trans fits) ?_
      linarith
    · exact feeds_of_aligned positive aligned full

/-- The size of a batch is at most `2 ^ 63`. -/
theorem batchSize_le {shardingSize all : Int} (shards : 1 ≤ shardingSize) (buckets : 1 ≤ all)
    (high : all < 2 ^ 63) : batchSize shardingSize all ≤ 2 ^ 63 := by
  have numerator : Binary64.ofInt all ≤ 2 ^ (63 : ℤ) :=
    Binary64.ofRat_le_zpow (by exact_mod_cast buckets) (by exact_mod_cast high.le)
  have denominator : 2 ^ (0 : ℤ) ≤ Binary64.ofInt shardingSize :=
    Binary64.zpow_le_ofRat (by exact_mod_cast shards)
  have positive : 0 < Binary64.ofInt all := Binary64.ofRat_pos (by exact_mod_cast buckets)
  have quotient : Binary64.ofInt all / Binary64.ofInt shardingSize ≤ 2 ^ (63 : ℤ) :=
    (div_le_self positive.le (by simpa using denominator)).trans numerator
  refine Int.ceil_le.mpr ?_
  exact_mod_cast Binary64.ofRat_le_zpow
    (div_pos positive (lt_of_lt_of_le (by norm_num) denominator)) quotient

variable {id shardingSize all : Int64}

/-- The batch of the code, from the values that its variables hold. -/
theorem getRange64_eq (buckets : 1 ≤ all.toInt) :
    (getRange64 id shardingSize all).2.2 =
      let s := wrapped (batchSize shardingSize.toInt all.toInt * (id.toInt - 1))
      let last := wrapped (batchSize shardingSize.toInt all.toInt * id.toInt - 1)
      let t := if last > all.toInt - 1 then all.toInt else last
      (intsFrom s (min t (all.toInt - 1))).map toString := by
  have start : (Int64.ofInt (batchSize shardingSize.toInt all.toInt) * (id - 1)).toInt =
      wrapped (batchSize shardingSize.toInt all.toInt * (id.toInt - 1)) := by
    rw [Int64.toInt_mul, Int64.toInt_ofInt, Int64.toInt_sub, Int64.size]
    exact Int.bmod_mul_bmod.trans Int.mul_bmod_bmod
  have last : (Int64.ofInt (batchSize shardingSize.toInt all.toInt) * id - 1).toInt =
      wrapped (batchSize shardingSize.toInt all.toInt * id.toInt - 1) := by
    rw [Int64.toInt_sub, Int64.toInt_mul, Int64.toInt_ofInt, Int64.size, Int.bmod_mul_bmod]
    exact Int.bmod_sub_bmod
  have before : (all - 1).toInt = all.toInt - 1 := by
    have high := all.toInt_lt
    rw [Int64.toInt_sub]
    exact wrapped_eq (n := all.toInt - 1) (by omega) (by omega)
  simp only [getRange64, gt_iff_lt, Int64.lt_iff_toInt_lt, apply_ite Int64.toInt, start, last,
    before]

/-- The code gives some bucket to the shard exactly if its batch is not empty. -/
theorem getRange64_ne_nil (buckets : 1 ≤ all.toInt) :
    (getRange64 id shardingSize all).2.2 ≠ [] ↔
      Feeds (batchSize shardingSize.toInt all.toInt) all.toInt id.toInt := by
  simp only [getRange64_eq buckets, ne_eq, List.map_eq_nil_iff, intsFrom_eq_nil, not_lt, Feeds]
  split <;> omega

/-- A shard that ends in the range of an `int` has the batch of `getRange`. -/
theorem getRange64_batch (shards : 1 ≤ shardingSize.toInt) (buckets : 1 ≤ all.toInt)
    (first : 1 ≤ id.toInt) (fits : batchSize shardingSize.toInt all.toInt * id.toInt ≤ 2 ^ 63) :
    (getRange64 id shardingSize all).2.2 =
      (getRange id.toInt shardingSize.toInt all.toInt).2.2 := by
  have size : 0 < batchSize shardingSize.toInt all.toInt := batchSize_pos shards buckets
  have low : 0 ≤ batchSize shardingSize.toInt all.toInt * (id.toInt - 1) :=
    Int.mul_nonneg size.le (by omega)
  have next : batchSize shardingSize.toInt all.toInt * id.toInt =
      batchSize shardingSize.toInt all.toInt * (id.toInt - 1) +
        batchSize shardingSize.toInt all.toInt := by ring
  rw [getRange64_eq buckets, wrapped_eq (by omega) (by omega), wrapped_eq (by omega) (by omega)]
  rfl

/-- No shard of the 32 hash buckets comes near the end of the range. -/
theorem batchSize_namespaces {shardingSize : Int} (shards : 1 ≤ shardingSize)
    (high : shardingSize < 2 ^ 63) : batchSize shardingSize 32 * shardingSize ≤ 2 ^ 63 := by
  by_cases small : shardingSize < 32
  · have each : ∀ n ∈ intsFrom 1 31, batchSize n 32 * n ≤ 2 ^ 63 := by decide +kernel
    exact each shardingSize (mem_intsFrom.mpr ⟨shards, by omega⟩)
  · have numerator : Binary64.ofInt 32 = 32 := Binary64.ofInt_eq (by decide) (by decide)
    have denominator : (2 : ℚ) ^ (5 : ℤ) ≤ Binary64.ofInt shardingSize := by
      refine Binary64.zpow_le_ofRat ?_
      norm_num
      exact_mod_cast not_lt.mp small
    norm_num at denominator
    have quotient : Binary64.ofInt 32 / Binary64.ofInt shardingSize ≤ 2 ^ (0 : ℤ) := by
      rw [numerator, zpow_zero, div_le_one (by linarith)]
      exact denominator
    have one : batchSize shardingSize 32 ≤ 1 := by
      refine Int.ceil_le.mpr ?_
      exact_mod_cast Binary64.ofRat_le_zpow
        (div_pos (by rw [numerator]; norm_num) (by linarith)) quotient
    nlinarith only [one, shards, high]

/-- The children have the batches of the code. -/
theorem getRange64_namespaces (shards : 1 ≤ shardingSize.toInt) (first : 1 ≤ id.toInt)
    (inside : id.toInt ≤ shardingSize.toInt) :
    (getRange64 id shardingSize 32).2.2 = (getRange id.toInt shardingSize.toInt 32).2.2 := by
  refine getRange64_batch shards (by decide) first (le_trans ?_
    (batchSize_namespaces shards shardingSize.toInt_lt))
  exact Int.mul_le_mul_of_nonneg_left inside (batchSize_pos shards (by decide)).le

/-- Every shard of the layout has a bucket, for counts in the range of an `int`. -/
def EveryShardFed64 (shardingSize all : Int64) : Prop :=
  ∀ id, 1 ≤ id → id ≤ shardingSize → (getRange64 id shardingSize all).2.2 ≠ []

/-- Every shard has a bucket if the shards before the last one leave some and the last one ends in
the range of an `int`. Where it does not, the starts wrap round to negative buckets, and no shard is
without one only if the batches fill the range without a rest. -/
theorem everyShardFed64_iff (shards : 1 ≤ shardingSize) (enough : shardingSize ≤ all) :
    EveryShardFed64 shardingSize all ↔
      (batchSize shardingSize.toInt all.toInt * (shardingSize.toInt - 1) < all.toInt ∧
        batchSize shardingSize.toInt all.toInt * shardingSize.toInt ≤ 2 ^ 63) ∨
      (batchSize shardingSize.toInt all.toInt ∣ 2 ^ 63 ∧
        2 ^ 63 - batchSize shardingSize.toInt all.toInt < all.toInt) := by
  have shards' : 1 ≤ shardingSize.toInt := Int64.le_iff_toInt_le.mp shards
  have buckets' : 1 ≤ all.toInt := shards'.trans (Int64.le_iff_toInt_le.mp enough)
  rw [← feeds_all_iff (batchSize_pos shards' buckets')
    (batchSize_le shards' buckets' all.toInt_lt) shards' buckets' all.toInt_lt]
  constructor
  · intro fed k first inside
    have value : (Int64.ofInt k).toInt = k :=
      Int64.toInt_ofInt_of_le (by omega) (inside.trans_lt shardingSize.toInt_lt)
    have here := (getRange64_ne_nil buckets').mp (fed (Int64.ofInt k)
      (Int64.le_iff_toInt_le.mpr (value.symm ▸ first))
      (Int64.le_iff_toInt_le.mpr (value.symm ▸ inside)))
    rwa [value] at here
  · intro fed id first inside
    exact (getRange64_ne_nil buckets').mpr (fed id.toInt (Int64.le_iff_toInt_le.mp first)
      (Int64.le_iff_toInt_le.mp inside))

/-- The 16 shards of 32 buckets have two each. Of this many shards with three each, the last starts
before the end and ends behind the largest `int`. -/
theorem everyShardFed64_sixteen :
    EveryShardFed64 16 32 ∧ ¬EveryShardFed64 3074457345618258603 9223372036854775807 :=
  ⟨(everyShardFed64_iff (by decide) (by decide)).mpr (.inl (by decide +kernel)),
    (everyShardFed64_iff (by decide) (by decide)).not.mpr (by decide +kernel)⟩

/-- Nine shards of 32 buckets take four each, so the ninth starts at 32. -/
theorem ninth_shard_starves :
    ¬∀ all shardingSize id : Int64, 1 ≤ all → 1 ≤ shardingSize → shardingSize ≤ all → 1 ≤ id →
      id ≤ shardingSize → (getRange64 id shardingSize all).2.2 ≠ [] := by
  intro fed
  exact fed 32 9 9 (by decide) (by decide) (by decide) (by decide) (by decide) (by decide +kernel)

end Wrapping

/-- The hashes a generated limit asks for: the values of the expression appended last. -/
def batchOf (limiter : ObjectLimiter) : List String :=
  (((limiter.selector.getD {}).matchExpressions.getLast?).map (·.values)).getD []

/-- The batch is the last expression that a normal shard appends. -/
theorem batchOf_restrict :
    batchOf (restrict limiter (normalExprs flags canary replicas batch)) = batch := by
  simp [batchOf, restrict, normalExprs, ← List.append_assoc]

/-- Every limit of a normal shard asks for the whole batch. -/
theorem batchOf_genShardingGlobalLimits {origin : List ObjectLimiter}
    (member : limiter ∈ genShardingGlobalLimits flags canary replicas batch origin) :
    batchOf limiter = batch := by
  simp only [genShardingGlobalLimits, clearSame_eq, ite_self] at member
  obtain ⟨original, -, rfl⟩ := List.mem_map.mp member
  exact batchOf_restrict

/-- `clearSame` is the difference of its lists only where there is nothing to take out, and a
normal shard is given the hashes of the canary that lie in its batch. -/
theorem clearSame_difference_iff (data target : List String) (flags : Flags) (canary : CanaryConfig)
    (replicas : Int) (batch : List String) (origin : List ObjectLimiter) :
    (clearSame data target = data.filter (· ∉ target) ↔ ∀ id ∈ data, id ∉ target) ∧
    ((∀ limiter ∈ genShardingGlobalLimits flags canary replicas batch origin,
        ∀ hash ∈ batchOf limiter, hash ∉ canary.inShardHash) ↔
      origin = [] ∨ ∀ hash ∈ batch, hash ∉ canary.inShardHash) := by
  constructor
  · rw [clearSame_eq, eq_comm, List.filter_eq_self]
    simp only [decide_eq_true_eq]
  · constructor
    · intro free
      cases origin with
      | nil => exact .inl rfl
      | cons limiter origin =>
        right
        have member : _ ∈ genShardingGlobalLimits flags canary replicas batch
          (limiter :: origin) := List.mem_cons_self
        rw [← batchOf_genShardingGlobalLimits member]
        exact free _ member
    · rintro (rfl | free) limiter member
      · exact absurd member List.not_mem_nil
      · rwa [batchOf_genShardingGlobalLimits member]

/-- The hash 0 of a canary without pods stays in the batch of the first shard. -/
theorem clearSame_keeps_canary_hash :
    (¬∀ data target : List String, clearSame data target = data.filter (· ∉ target)) ∧
    ¬∀ (flags : Flags) (canary : CanaryConfig) (replicas : Int) (batch : List String)
      (origin : List ObjectLimiter),
      ∀ limiter ∈ genShardingGlobalLimits flags canary replicas batch origin,
        ∀ hash ∈ batchOf limiter, hash ∉ canary.inShardHash := by
  constructor
  · intro difference
    exact absurd (difference ["0", "1"] ["0"]) (by decide)
  · intro free
    exact free {} ⟨some 0, [], ["0"]⟩ 0 ["0", "1"] [⟨[], none⟩] _ List.mem_cons_self "0"
      (by decide) (by decide)

end CtrlMesh.Sharding
