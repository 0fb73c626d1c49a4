import Mathlib.Order.Basic

/-!
# The first hit of an ordered list of probes

A lookup tries probes one after the other and takes the first that finds something. If the probes
stand in the order of a rank, the hit has the lowest rank of all that find something. A probe may
come again later in the list, out of order: if it found something it was taken before. The first
hit of a countdown is the largest one.
-/

namespace CtrlMesh.Lib

variable {α β : Type} [Preorder β] (rank : α → β)

/-- The list is in the order of the rank, but for elements seen before. -/
def RankedFrom (seen : List α) : List α → Prop
  | [] => True
  | first :: rest =>
    (∀ later ∈ rest, later ∈ seen ∨ rank first ≤ rank later) ∧ RankedFrom (first :: seen) rest

instance RankedFrom.decidable [DecidableEq α] [DecidableLE β] :
    ∀ seen list, Decidable (RankedFrom rank seen list)
  | _, [] => isTrue trivial
  | seen, first :: rest =>
    have := RankedFrom.decidable (first :: seen) rest
    inferInstanceAs (Decidable ((∀ later ∈ rest, later ∈ seen ∨ rank first ≤ rank later) ∧
      RankedFrom rank (first :: seen) rest))

variable {rank} {seen probes : List α} {hits : α → Bool} {found : α}

/-- The first hit has the lowest rank of all hits. -/
theorem RankedFrom.find?_le (ranked : RankedFrom rank seen probes)
    (missed : ∀ probe ∈ seen, hits probe = false) (first : probes.find? hits = some found) :
    ∀ probe ∈ probes, hits probe = true → rank found ≤ rank probe := by
  induction probes generalizing seen with
  | nil => simp
  | cons head rest ih =>
    obtain ⟨lowest, ranked⟩ := ranked
    intro probe member hit
    cases hitsHead : hits head with
    | true =>
      rw [List.find?_cons_of_pos hitsHead, Option.some.injEq] at first
      subst first
      rcases List.mem_cons.mp member with rfl | later
      · exact le_refl _
      · rcases lowest probe later with before | le
        · rw [missed probe before] at hit
          cases hit
        · exact le
    | false =>
      rw [List.find?_cons_of_neg (by simp [hitsHead])] at first
      have missed' : ∀ probe ∈ head :: seen, hits probe = false :=
        List.forall_mem_cons.mpr ⟨hitsHead, missed⟩
      rcases List.mem_cons.mp member with rfl | later
      · rw [hitsHead] at hit
        cases hit
      · exact ih ranked missed' first probe later hit

/-- The order of a list carries over to its image under a map that keeps the ranks. -/
theorem RankedFrom.map {γ : Type} {rank' : γ → β} {before list : List γ} (f : γ → α)
    (ranks : ∀ x ∈ list, rank (f x) = rank' x) (ranked : RankedFrom rank' before list) :
    RankedFrom rank (before.map f) (list.map f) := by
  induction list generalizing before with
  | nil => trivial
  | cons first rest ih =>
    obtain ⟨lowest, ranked⟩ := ranked
    rw [List.forall_mem_cons] at ranks
    refine ⟨?_, ih ranks.2 ranked⟩
    intro later member
    obtain ⟨x, inside, rfl⟩ := List.mem_map.mp member
    rw [ranks.1, ranks.2 x inside]
    exact (lowest x inside).imp_left List.mem_map_of_mem

/-- A search from above finds the largest hit. -/
theorem find?_reverse_range {hits : Nat → Bool} {n k : Nat} :
    (List.range n).reverse.find? hits = some k ↔
      k < n ∧ hits k = true ∧ ∀ j, k < j → j < n → hits j = false := by
  induction n with
  | zero => simp
  | succ n ih =>
    rw [List.range_succ, List.reverse_append, List.reverse_singleton, List.singleton_append]
    cases hit : hits n with
    | true =>
      rw [List.find?_cons_of_pos hit, Option.some.injEq]
      constructor
      · rintro rfl
        exact ⟨by omega, hit, fun j above below => by omega⟩
      · rintro ⟨below, -, later⟩
        by_contra other
        have missed := later n (by omega) (by omega)
        rw [hit] at missed
        cases missed
    | false =>
      rw [List.find?_cons_of_neg (by simp [hit]), ih]
      constructor
      · rintro ⟨below, here, later⟩
        refine ⟨by omega, here, fun j above _ => ?_⟩
        by_cases last : j = n
        · rw [last, hit]
        · exact later j above (by omega)
      · rintro ⟨below, here, later⟩
        have other : k ≠ n := by
          rintro rfl
          rw [hit] at here
          cases here
        exact ⟨by omega, here, fun j above below => later j above (by omega)⟩

end CtrlMesh.Lib
