import PicoGpu.FragmentOrder

/- Whether the commands of a queue come one after the other. A command is launched when every
   busy signal of `getBlocksBusySignals` was low a clock before, and the fragment shader is not
   among these: what it held then, it or the output merger has now. -/
namespace PicoGpu
namespace Gpu

section
variable {F : Type}

/-- **A command is launched with no work of an earlier one outstanding if and only if the
    fragment shader had no fragments a clock before.** -/
theorem commands_serialized (f : Floats F) (alu : Alu Dword) (config : GpuConfig)
    (env : GpuEnvironment) (unit0 unit1 : ShaderUnit Dword) (n : Nat)
    (hdispatches : Dispatches f alu config env unit0 unit1 n) :
    (after f alu config env unit0 unit1 n).Idle config ↔
      (after f alu config env unit0 unit1 (n - 1)).fragments.perFragment.holdsFragments =
        false := by
  constructor
  · intro hidle
    cases n with
    | zero => rfl
    | succ n => exact (linked_after ⟨f, alu, config, env, unit0, unit1⟩ n).emptied hidle
  · exact idle_of_dispatches hdispatches

/-- The second blit is launched behind a draw whose pixel has been written. -/
theorem commands_serialized_behind_draw : shadedRun.merging 374 = [⟨0, 0, 0, 0xFF000000⟩] ∧
    (shadedRun.state 374).Idle shadedRun.config := by
  obtain ⟨hmerging, hempty, hrunning, hlaunched⟩ := shadedRun_merging
  exact ⟨hmerging, (commands_serialized _ _ _ _ _ _ 374 ⟨hrunning, hlaunched⟩).mpr hempty⟩

end

/-- The blit is launched while the fragment shader still offers its request. -/
theorem commands_not_serialized :
    Dispatches dwordFloats integerAlu pixelConfig pixelEnvironment pixelUnit pixelUnit 299 ∧
      ¬ (after dwordFloats integerAlu pixelConfig pixelEnvironment pixelUnit pixelUnit 299).Idle
        pixelConfig := by
  have hrun :
      let s := after dwordFloats integerAlu pixelConfig pixelEnvironment pixelUnit pixelUnit 299
      s.Running ∧ (s.dispatched pixelEnvironment 299).isSome = true ∧
        s.fragments.perFragment.holdsFragments = true := by
    rw [← evaluated_eq]
    decide +kernel
  obtain ⟨hrunning, hdispatched, hholds⟩ := hrun
  refine ⟨⟨hrunning, hdispatched⟩, ?_⟩
  intro hidle
  rw [hidle.perFragment.empty] at hholds
  cases hholds

end Gpu

end PicoGpu
