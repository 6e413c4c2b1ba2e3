import SettingsBinding.Pass
import SettingsBinding.Proofs.Json.Printed
import SettingsBinding.Proofs.Settings.Documents
import SettingsBinding.Proofs.Text.Pieces

/-!
Diagnostics and the messages that they carry. Whatever characters the messages are made of, they are
read back from the diagnostic one by one; so the diagnostic of a pass that fails says exactly what
is wrong with the classes, mismatch by mismatch.
-/

namespace SettingsBinding

namespace Json

theorem depth_array_strings (texts : List String) : (array (texts.map string)).depth ≤ 1 := by
  rw [depth_array_le_iff]
  intro item hitem
  obtain ⟨text, -, rfl⟩ := List.mem_map.1 hitem
  exact Nat.le_refl 0

theorem numbers_array_strings (texts : List String) : (array (texts.map string)).numbers = [] := by
  rw [numbers, itemsNumbers_eq_flatMap, List.flatMap_map]
  exact List.flatMap_eq_nil_iff.2 fun _ _ => rfl

theorem strings?_array (texts : List String) :
    (array (texts.map string)).strings? = some texts := by
  rw [strings?, List.mapM_map]
  induction texts with
  | nil => rfl
  | cons text rest ih =>
      rw [List.mapM_cons, ih]
      rfl

end Json

namespace Diagnostic

/-- The messages that are put into a diagnostic come out of it. -/
theorem messages?_ofMessages (messages : List String) :
    (ofMessages messages).messages? = some messages := by
  have hread : Json.read (Json.print .compact 0 (.array (messages.map .string))) =
      .ok (.array (messages.map .string)) := by
    have hnumbers : ∀ n ∈ (Json.array (messages.map .string)).numbers, n.IsWord := by
      rw [Json.numbers_array_strings]
      exact nofun
    have hdepth := Nat.le_trans (Json.depth_array_strings messages)
      (Nat.succ_le_succ (Nat.zero_le 126))
    have hprinted := Json.read_print .compact hnumbers hdepth (List.forall_mem_nil _)
    rwa [List.append_nil] at hprinted
  have htext : (ofMessages messages).message.toList =
      lead.toList ++ Json.print .compact 0 (.array (messages.map .string)) := by
    simp [ofMessages, Json.compact]
  rw [messages?, htext, dropStart?_eq_some_iff.2 rfl]
  simp only [Option.bind_eq_bind, Option.bind_some, hread, Except.toOption]
  exact Json.strings?_array messages

end Diagnostic

namespace PassInput

variable {input : PassInput}

theorem run_eq_ok_iff {outcome : Outcome} :
    input.run = .ok outcome ↔
      ∃ report, input.check = .ok report ∧ input.outcome report = outcome := by
  rw [run]
  cases input.check <;> simp [Except.map]

theorem outcome_eq_failed_iff {report : CheckReport} {diagnostic : Diagnostic}
    {mismatches : List Mismatch} :
    input.outcome report = .failed diagnostic mismatches ↔
      mismatches ≠ [] ∧ report.mismatches = mismatches ∧
        diagnostic = .ofMessages (mismatches.map Mismatch.message) := by
  rw [outcome]
  split
  · next hvalid =>
      have hnone : report.mismatches = [] := List.isEmpty_iff.1 hvalid
      rw [hnone]
      constructor
      · cases input.hostSource? <;> exact nofun
      · rintro ⟨hsome, rfl, -⟩
        exact absurd rfl hsome
  · next hvalid =>
      have hsome : report.mismatches ≠ [] := fun hnone =>
        hvalid (List.isEmpty_iff.2 hnone)
      rw [Outcome.failed.injEq, CheckReport.messages]
      constructor
      · rintro ⟨rfl, rfl⟩
        exact ⟨hsome, rfl, rfl⟩
      · rintro ⟨-, rfl, rfl⟩
        exact ⟨rfl, rfl⟩

/-- Any messages come back out of the diagnostic that carries them. So where a pass fails, there are
mismatches, they are those of the check, and the diagnostic carries their texts in their order. -/
theorem diagnostic_carries_mismatches :
    (∀ messages : List String, (Diagnostic.ofMessages messages).messages? = some messages) ∧
    ∀ (input : PassInput) (diagnostic : Diagnostic) (mismatches : List Mismatch),
      input.run = .ok (.failed diagnostic mismatches) →
      mismatches ≠ [] ∧
      (∃ report, input.check = .ok report ∧ report.mismatches = mismatches) ∧
      diagnostic.messages? = some (mismatches.map Mismatch.message) := by
  refine ⟨Diagnostic.messages?_ofMessages, fun input diagnostic mismatches hrun => ?_⟩
  obtain ⟨report, hcheck, houtcome⟩ := run_eq_ok_iff.1 hrun
  obtain ⟨hsome, hmismatches, rfl⟩ := outcome_eq_failed_iff.1 houtcome
  exact ⟨hsome, ⟨report, hcheck, hmismatches⟩, Diagnostic.messages?_ofMessages _⟩

/-- A class whose key holds a quotation mark, a backslash, a line break and a control character. -/
def oddInput : PassInput :=
  ⟨{}, fun _ => false, [], [⟨"D\"\\\n\x01Configuration", "App", []⟩]⟩

theorem diagnostic_carries_odd_key :
    ∃ diagnostic, oddInput.run =
        .ok (.failed diagnostic [⟨"D\"\\\n\x01", none, .sectionNotFound⟩]) ∧
      diagnostic.messages? =
        some ["Configuration for class D\"\\\n\x01 not found in json file."] := by
  have hcheck : oddInput.check = .ok (oddInput.report (.ofRead [])) := rfl
  have hmismatches : (oddInput.report (.ofRead [])).mismatches =
      [⟨"D\"\\\n\x01", none, .sectionNotFound⟩] := by
    decide +kernel
  have hrun := run_eq_ok_iff.2
    ⟨_, hcheck, outcome_eq_failed_iff.2 ⟨List.cons_ne_nil _ _, hmismatches, rfl⟩⟩
  exact ⟨_, hrun, (diagnostic_carries_mismatches.2 _ _ _ hrun).2.2⟩

end PassInput

end SettingsBinding
