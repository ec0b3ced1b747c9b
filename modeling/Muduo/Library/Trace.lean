/-!
# What a trace says is in force

An event that opens something and an event that closes it: what was opened is
in force as long as it was not closed since.
-/

namespace Muduo.Library

universe u

variable {Event : Type u}

/-- `opening` occurs in the trace, and `closing` does not occur after it. -/
def InForce (trace : List Event) (opening closing : Event) : Prop :=
  ∃ first second, trace = first ++ opening :: second ∧ closing ∉ second

theorem not_inForce_nil (opening closing : Event) :
    ¬ InForce [] opening closing := by
  intro inForce
  obtain ⟨first, second, split, _⟩ := inForce
  exact absurd split.symm (List.append_ne_nil_of_right_ne_nil _
    (List.cons_ne_nil _ _))

/-- One more event opens, closes or leaves things as they are. -/
theorem inForce_concat {trace : List Event} {event opening closing : Event} :
    InForce (trace ++ [event]) opening closing ↔
      event = opening ∨
        (InForce trace opening closing ∧ event ≠ closing) := by
  constructor
  · intro inForce
    obtain ⟨first, second, split, unclosed⟩ := inForce
    rcases List.eq_nil_or_concat second with rfl | ⟨front, last, rfl⟩
    · obtain ⟨_, same⟩ := List.append_inj' split rfl
      exact .inl (List.singleton_inj.mp same)
    · rw [List.concat_eq_append, ← List.cons_append,
        ← List.append_assoc] at split
      obtain ⟨before, same⟩ := List.append_inj' split rfl
      rw [List.concat_eq_append, List.mem_append] at unclosed
      refine .inr ⟨⟨first, front, before, fun member =>
        unclosed (.inl member)⟩, ?_⟩
      intro closes
      rw [← closes, List.singleton_inj.mp same] at unclosed
      exact unclosed (.inr (List.mem_singleton.mpr rfl))
  · intro either
    rcases either with rfl | ⟨⟨first, second, rfl, unclosed⟩, other⟩
    · exact ⟨trace, [], rfl, List.not_mem_nil⟩
    · refine ⟨first, second ++ [event], by simp, ?_⟩
      intro member
      rcases List.mem_append.mp member with early | late
      · exact unclosed early
      · exact other (List.mem_singleton.mp late).symm

theorem inForce_concat_other {trace : List Event}
    {event opening closing : Event} (opens : event ≠ opening)
    (closes : event ≠ closing) :
    InForce (trace ++ [event]) opening closing ↔
      InForce trace opening closing := by
  rw [inForce_concat]
  constructor
  · intro either
    exact (either.resolve_left opens).1
  · intro inForce
    exact .inr ⟨inForce, closes⟩

end Muduo.Library
